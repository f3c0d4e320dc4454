import Mathlib.Data.List.Find
import PredicateLang.Proofs.Token.Outcomes

set_option autoImplicit false

namespace PredicateLang

namespace Rules

/-- The keyword that is looked for in a run of letters: all of it with the boundary, its front without. -/
def keyword? (keywordBoundary : Bool) (letters : List Char) : Option (List Char × TokenKind) :=
  keywords.find? fun entry =>
    if keywordBoundary then entry.1 = letters else entry.1.isPrefixOf letters

def leading (keywordBoundary : Bool) (letters : List Char) : List Char × TokenKind :=
  (keyword? keywordBoundary letters).getD (letters, .identifier)

variable {keywordBoundary : Bool} {letters rest : List Char} {entry : List Char × TokenKind}

theorem leading_of_some (known : keyword? keywordBoundary letters = some entry) :
    leading keywordBoundary letters = entry := by
  rw [leading, known]
  rfl

theorem leading_of_none (known : keyword? keywordBoundary letters = none) :
    leading keywordBoundary letters = (letters, .identifier) := by
  rw [leading, known]
  rfl

theorem letters_of_entry (listed : entry ∈ keywords) : ∀ c ∈ entry.1, isLetter c = true := by
  have all : keywords.all (fun entry => entry.1.all isLetter) = true := by decide +kernel
  exact List.all_eq_true.mp (List.all_eq_true.mp all entry listed)

theorem prefix_of_run (listed : entry ∈ keywords) (all : ∀ c ∈ letters, isLetter c = true)
    (stops : beginsIn isLetter rest = false) :
    entry.1 <+: letters ++ rest ↔ entry.1 <+: letters := by
  constructor
  · rintro ⟨more, whole⟩
    -- A keyword has nothing but letters, so it ends where the run does at the latest.
    have run := takeWhile_append_of_stop all stops
    rw [← whole, List.takeWhile_append_of_pos (letters_of_entry listed)] at run
    exact ⟨_, run⟩
  · exact fun front => front.trans (List.prefix_append letters rest)

theorem word_of_run (all : ∀ c ∈ letters, isLetter c = true) (stops : beginsIn isLetter rest = false) :
    word keywordBoundary (letters ++ rest) =
      .token (leading keywordBoundary letters).2 (leading keywordBoundary letters).1.length := by
  have sought : (keywords.find? fun entry => allows keywordBoundary letters entry ∧
      entry.1.isPrefixOf (letters ++ rest)) = keyword? keywordBoundary letters := by
    apply List.find?_congr
    intro entry listed
    have front := prefix_of_run listed all stops
    rw [Bool.eq_iff_iff]
    cases keywordBoundary with
    | false => simp [allows, front]
    | true =>
        simp only [allows, Bool.not_true, Bool.false_or, decide_eq_true_eq,
          List.isPrefixOf_iff_prefix, front, if_true]
        constructor
        · rintro ⟨long, begun⟩
          exact begun.eq_of_length long
        · rintro rfl
          exact ⟨rfl, List.prefix_rfl⟩
  rw [word_eq, takeWhile_append_of_stop all stops, begins?, List.find?_filter, sought, leading]
  cases keyword? keywordBoundary letters <;> rfl

theorem listed_of_keyword (known : keyword? keywordBoundary letters = some entry) : entry ∈ keywords :=
  List.mem_of_find?_eq_some known

theorem front_of_keyword (known : keyword? keywordBoundary letters = some entry) :
    entry.1 <+: letters := by
  have begins := List.find?_some known
  cases keywordBoundary with
  | false => simpa using begins
  | true =>
      obtain rfl : entry.1 = letters := by simpa using begins
      exact List.prefix_rfl

theorem leading_whole (letters : List Char) : (leading true letters).1 = letters := by
  rw [leading]
  cases known : keyword? true letters with
  | none => rfl
  | some entry => simpa using List.find?_some known

theorem keyword_of_listed (listed : entry ∈ keywords) : keyword? keywordBoundary entry.1 = some entry := by
  have all : ∀ boundary, keywords.all (fun entry => keyword? boundary entry.1 = some entry) = true := by
    decide
  simpa using List.all_eq_true.mp (all keywordBoundary) entry listed

theorem plain_of_entry (listed : entry ∈ keywords) :
    entry.2 ≠ .eof ∧ entry.2 ≠ .string ∧ entry.2 ≠ .identifier ∧ entry.2 ≠ .whitespace := by
  have all : ∀ entry ∈ keywords, entry.2 ≠ .eof ∧ entry.2 ≠ .string ∧ entry.2 ≠ .identifier ∧
      entry.2 ≠ .whitespace := by decide
  exact all entry listed

theorem ne_nil_of_entry (listed : entry ∈ keywords) : entry.1 ≠ [] := by
  have all : ∀ entry ∈ keywords, entry.1 ≠ [] := by decide
  exact all entry listed

/-- The keywords in front of a run of letters, one after the other, then what is left as a name. -/
def pieces (position : Position) (letters : List Char) : List Token :=
  match _known : keyword? false letters with
  | some (spelling, kind) =>
      ⟨kind, position, String.ofList spelling⟩ ::
        pieces (position.advanceOver spelling) (letters.drop spelling.length)
  | none => if letters = [] then [] else [⟨.identifier, position, String.ofList letters⟩]
termination_by letters.length
decreasing_by
  have some := List.length_pos_iff.mpr (ne_nil_of_entry (listed_of_keyword _known))
  have fits := (front_of_keyword _known).length_le
  rw [List.length_drop]
  simp only at some fits
  omega

end Rules

def Token.pieces (t : Token) : List Token :=
  if t.kind = .identifier then Rules.pieces t.position t.text.toList else [t]

namespace Rules

variable {keywordBoundary : Bool} {position : Position} {letters text rest : List Char}
  {result : Except LexFault (List Token)}

theorem found_of_run (some : letters ≠ []) (all : ∀ c ∈ letters, isLetter c = true)
    (stops : beginsIn isLetter rest = false) :
    found keywordBoundary (letters ++ rest) =
      .token (leading keywordBoundary letters).2 (leading keywordBoundary letters).1.length := by
  obtain ⟨c, more, rfl⟩ := List.exists_cons_of_ne_nil some
  rw [← word_of_run all stops, List.cons_append]
  exact found_of_letter (all c List.mem_cons_self) _

theorem exists_run (begins : beginsIn isLetter text = true) :
    ∃ letters rest, text = letters ++ rest ∧ letters ≠ [] ∧
      (∀ c ∈ letters, isLetter c = true) ∧ beginsIn isLetter rest = false := by
  refine ⟨text.takeWhile isLetter, text.dropWhile isLetter, List.takeWhile_append_dropWhile.symm, ?_,
    fun c => List.mem_takeWhile_imp, ?_⟩
  · cases text with
    | nil => cases begins
    | cons c behind =>
        have letter : isLetter c = true := begins
        simp [letter]
  · have head := List.head?_dropWhile_not isLetter text
    cases ends : text.dropWhile isLetter with
    | nil => rfl
    | cons c rest =>
        rw [ends] at head
        exact head

theorem outcome_pieces (all : ∀ c ∈ letters, isLetter c = true) (stops : beginsIn isLetter rest = false)
    (behind : Outcome false (position.advanceOver letters) rest result) :
    Outcome false position (letters ++ rest) (result.map (pieces position letters ++ ·)) := by
  fun_induction pieces position letters with
  | case1 position letters spelling kind known ih =>
      have listed := listed_of_keyword known
      obtain ⟨more, rfl⟩ := front_of_keyword known
      have some : spelling ++ more ≠ [] := List.append_ne_nil_of_left_ne_nil (ne_nil_of_entry listed) more
      have finds : found false (spelling ++ more ++ rest) = .token kind spelling.length := by
        rw [found_of_run some all stops, leading_of_some known]
      rw [List.drop_left] at ih ⊢
      rw [Position.advanceOver_append] at behind
      have others := ih (fun c inside => all c (List.mem_append_right _ inside)) behind
      have whole : Outcome false position _ _ :=
        .token (List.append_assoc spelling more rest) finds (plain_of_entry listed).1 others
      rw [lexeme, if_neg (plain_of_entry listed).2.1] at whole
      cases result <;> exact whole
  | case2 position known => cases result <;> exact behind
  | case3 position letters known some =>
      have finds : found false (letters ++ rest) = .token .identifier letters.length := by
        rw [found_of_run some all stops, leading_of_none known]
      exact .token rfl finds TokenKind.noConfusion behind

theorem found_of_other (other : beginsIn isLetter text = false) : found false text = found true text := by
  cases text with
  | nil => rfl
  | cons c rest =>
      have noLetter : isLetter c = false := other
      simp [found, noLetter]

theorem begins_of_name {length : Nat} (finds : found keywordBoundary text = .token .identifier length) :
    beginsIn isLetter text = true := by
  obtain ⟨some, all⟩ := letters_of_found finds
  cases text with
  | nil => simp at some
  | cons c rest =>
      cases length with
      | zero => simp at some
      | succ length => exact all c (by simp)

theorem pieces_of_word (position : Position) (letters : List Char) :
    Token.pieces ⟨(leading true letters).2, position, lexeme (leading true letters).2 letters⟩ =
      pieces position letters := by
  cases known : keyword? true letters with
  | none =>
      rw [leading_of_none known, Token.pieces, if_pos rfl, lexeme, if_neg TokenKind.noConfusion,
        String.toList_ofList]
  | some entry =>
      obtain ⟨spelling, kind⟩ := entry
      have listed := listed_of_keyword known
      obtain ⟨-, noString, noName, -⟩ := plain_of_entry listed
      obtain rfl : spelling = letters := by simpa using List.find?_some known
      have first : keyword? false spelling = some (spelling, kind) := keyword_of_listed listed
      rw [leading_of_some known, Token.pieces, if_neg noName, lexeme, if_neg noString]
      conv_rhs => rw [pieces]
      split
      · rename_i front kind' known'
        cases first.symm.trans known'
        rw [List.drop_length, pieces]
        rfl
      · rename_i none
        rw [first] at none
        cases none

theorem outcome_unbounded (bounded : Outcome true position text result) :
    Outcome false position text (result.map (·.flatMap Token.pieces)) := by
  induction bounded with
  | finish position => exact .finish position
  | @fault position text cause length finds =>
      cases begins : beginsIn isLetter text with
      | true =>
          obtain ⟨letters, rest, rfl, some, all, stops⟩ := exists_run begins
          rw [found_of_run some all stops] at finds
          cases finds
      | false => exact .fault ((found_of_other begins).trans finds)
  | @token position text word rest kind result split finds more _ ih =>
      cases begins : beginsIn isLetter text with
      | true =>
          obtain ⟨letters, tail, run, some, all, stops⟩ := exists_run begins
          rw [run, found_of_run some all stops, leading_whole] at finds
          injection finds with same long
          obtain ⟨rfl, rfl⟩ := List.append_inj (run.symm.trans split) long
          subst run same
          have apart : Outcome false position (letters ++ tail) _ := outcome_pieces all stops ih
          have parts := pieces_of_word position letters
          cases result with
          | error fault => exact apart
          | ok tokens => simpa [Except.map, parts] using apart
      | false =>
          have stays : Token.pieces ⟨kind, position, lexeme kind word⟩ =
              [⟨kind, position, lexeme kind word⟩] := by
            rw [Token.pieces, if_neg]
            rintro (rfl : kind = .identifier)
            simp [begins_of_name finds] at begins
          have whole := Outcome.token split ((found_of_other begins).trans finds) more ih
          cases result with
          | error fault => exact whole
          | ok tokens => simpa [Except.map, stays] using whole

end Rules

/-- Without a boundary behind keywords a text has the same tokens as with one, but that names are taken apart
into the keywords in front of them and the letters that are left; and where one scan fails, the other fails
by the same fault. -/
theorem boundary_off_takes_names_apart (source : String) :
    allTokens (Scanner.ofString false source) =
      (allTokens (Scanner.ofString true source)).map (·.flatMap Token.pieces) := by
  have bounded := Scanner.outcome_allTokens (Scanner.stands_ofString true source)
  exact Scanner.allTokens_of_outcome (Rules.outcome_unbounded bounded)
    (Scanner.stands_ofString false source)

example : (Rules.pieces .start "andorx".toList).map (fun t => (t.kind, t.text)) =
    [(.conjunction, "and"), (.disjunction, "or"), (.identifier, "x")] := by cbv

end PredicateLang
