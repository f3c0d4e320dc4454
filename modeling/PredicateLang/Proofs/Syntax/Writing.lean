import PredicateLang.Proofs.Syntax.Spacing
import PredicateLang.Proofs.Token.Boundaries

set_option autoImplicit false

namespace PredicateLang

/-- The word of a token: a string gets its quotes back. -/
def Token.written (t : Token) : String := if t.kind = .string then "\"" ++ t.text ++ "\"" else t.text

/-- The tokens that have a word of their own, without the blanks and the end of input. -/
def solid (tokens : List Token) : List Token :=
  tokens.filter fun t => t.kind ≠ .whitespace ∧ t.kind ≠ .eof

def written (tokens : List Token) : String := " ".intercalate ((solid tokens).map Token.written)

namespace Rules

variable {keywordBoundary : Bool} {kind : TokenKind} {text word rest inside run letters : List Char}
  {length : Nat}

def Spaced (rest : List Char) : Prop := ∀ c, rest.head? = some c → c = ' '

theorem Spaced.stops (spaced : Spaced rest) {class? : Char → Bool} (other : class? ' ' = false) :
    beginsIn class? rest = false := by
  cases rest with
  | nil => rfl
  | cons c rest =>
      obtain rfl := spaced c rfl
      exact other

def Settled (keywordBoundary : Bool) (kind : TokenKind) (word : List Char) : Prop :=
  ∀ rest, Spaced rest → found keywordBoundary (word ++ rest) = .token kind word.length

theorem Settled.of_found {kind' : TokenKind} {word' : List Char}
    (settled : Settled keywordBoundary kind' word') (split : word' ++ text = word ++ rest)
    (agree : Found.token kind' word'.length = .token kind word.length) :
    Settled keywordBoundary kind word := by
  injection agree with same long
  obtain rfl := List.append_inj_left split long
  subst same
  exact settled

theorem inside_of_string (finds : string text = .token kind length) :
    ∃ inside behind, text = inside ++ '"' :: behind ∧ Open inside ∧ escaped inside = false ∧
      length = inside.length + 2 := by
  rw [string] at finds
  cases ends : closing? text with
  | none => simp [ends] at finds
  | some n =>
      simp only [ends] at finds
      rw [closing?, List.find?_range_eq_some] at ends
      obtain ⟨closed, within, before⟩ := ends
      have inner : n < text.length := List.mem_range.mp within
      have there : text.getD n '\n' = text[n] := by simp [List.getD, inner]
      rw [there] at finds closed
      split_ifs at finds with newline
      injection finds with _ long
      have quote : text[n] = '"' ∧ escaped (text.take n) = false := by simpa [closes, newline] using closed
      refine ⟨text.take n, text.drop (n + 1), ?_, ?_, quote.2, ?_⟩
      · rw [← quote.1, ← List.drop_eq_getElem_cons inner, List.take_append_drop]
      · -- A character that closes the inside would stand before the first one that does.
        intro front c behind same
        have size := congrArg List.length same
        rw [List.length_take, List.length_append, List.length_cons] at size
        have earlier := before front.length (by omega)
        have whole : text = front ++ c :: (behind ++ text.drop n) := by
          rw [← List.cons_append, ← List.append_assoc, ← same, List.take_append_drop]
        rw [whole] at earlier
        simpa using earlier
      · rw [← long, List.length_take, Nat.min_eq_left (Nat.le_of_lt inner)]

theorem quoted_of_string (split : '"' :: text = word ++ rest)
    (finds : string text = .token kind word.length) :
    ∃ inside, word = '"' :: (inside ++ ['"']) ∧ Open inside ∧ escaped inside = false := by
  obtain ⟨inside, behind, rfl, still, bare, long⟩ := inside_of_string finds
  have whole : '"' :: (inside ++ ['"']) ++ behind = word ++ rest := by simp [← split]
  obtain ⟨rfl, -⟩ := List.append_inj whole (by simp [long])
  exact ⟨inside, rfl, still, bare⟩

theorem settled_string (split : '"' :: text = word ++ rest)
    (finds : string text = .token kind word.length) : Settled keywordBoundary kind word := by
  intro behind _
  obtain rfl := Scanner.kind_of_string finds
  obtain ⟨inside, rfl, still, bare⟩ := quoted_of_string split finds
  have whole : '"' :: (inside ++ ['"']) ++ behind = '"' :: (inside ++ '"' :: behind) := by simp
  rw [whole, found, if_pos rfl, string_of_quote still bare]
  simp

theorem settled_number {c : Char} (digit : isDigit c = true) (split : c :: text = word ++ rest)
    (finds : number (c :: text) = .token kind word.length) : Settled keywordBoundary kind word := by
  intro behind spaced
  obtain rfl := Scanner.kind_of_number finds
  obtain ⟨run, sound⟩ := run_of_number finds
  rw [split, List.take_left, ← split] at run
  rw [← run] at sound
  have all : ∀ d ∈ word, numeric d = true := fun d present => List.mem_takeWhile_imp (run ▸ present)
  have noQuote : c ≠ '"' := by
    rintro rfl
    cases digit
  rw [List.takeWhile_cons_of_pos (by simp [numeric, digit])] at run
  rw [← number_of_sound all (spaced.stops (by decide)) sound, run, List.cons_append, found,
    if_neg noQuote, if_pos digit]

theorem leading_leading (letters : List Char) :
    leading keywordBoundary (leading keywordBoundary letters).1 = leading keywordBoundary letters := by
  cases known : keyword? keywordBoundary letters with
  | none => rw [leading_of_none known, leading_of_none known]
  | some entry =>
      rw [leading_of_some known, leading_of_some (keyword_of_listed (listed_of_keyword known))]

theorem leading_front (letters : List Char) : (leading keywordBoundary letters).1 <+: letters := by
  cases known : keyword? keywordBoundary letters with
  | none => simp [leading_of_none known]
  | some entry => simpa [leading_of_some known] using front_of_keyword known

theorem leading_ne_nil (some : letters ≠ []) : (leading keywordBoundary letters).1 ≠ [] := by
  cases known : keyword? keywordBoundary letters with
  | none => simpa [leading_of_none known] using some
  | some entry => simpa [leading_of_some known] using ne_nil_of_entry (listed_of_keyword known)

theorem settled_leading (some : letters ≠ []) (all : ∀ c ∈ letters, isLetter c = true) :
    Settled keywordBoundary (leading keywordBoundary letters).2 (leading keywordBoundary letters).1 := by
  intro behind spaced
  have inside : ∀ c ∈ (leading keywordBoundary letters).1, isLetter c = true :=
    fun c present => all c ((leading_front letters).subset present)
  rw [found_of_run (leading_ne_nil some) inside (spaced.stops (by decide +kernel)), leading_leading]

theorem settled_word (letter : beginsIn isLetter text = true) (split : text = word ++ rest)
    (finds : found keywordBoundary text = .token kind word.length) : Settled keywordBoundary kind word := by
  obtain ⟨letters, tail, rfl, some, all, stops⟩ := exists_run letter
  obtain ⟨left, front⟩ : (leading keywordBoundary letters).1 <+: letters := leading_front letters
  have whole : (leading keywordBoundary letters).1 ++ (left ++ tail) = word ++ rest := by
    rw [← List.append_assoc, front, split]
  rw [found_of_run some all stops] at finds
  exact (settled_leading some all).of_found whole finds

theorem settled_mark {c : Char} (plain : ∀ rest, found keywordBoundary (c :: rest) = mark (c :: rest))
    (split : c :: text = word ++ rest) (finds : mark (c :: text) = .token kind word.length) :
    Settled keywordBoundary kind word := by
  have single : c :: text = [c] ++ text := rfl
  cases known : punctuation? c with
  | some kind =>
      have settled : Settled keywordBoundary kind [c] := fun behind _ =>
        (plain behind).trans (mark_of_punctuation known behind)
      rw [mark_of_punctuation known] at finds
      exact settled.of_found (single.symm.trans split) finds
  | none =>
      cases double : doubling? c with
      | some entry =>
          obtain ⟨second, long, short⟩ := entry
          by_cases front : [second] <+: text
          · obtain ⟨tail, rfl⟩ := front
            have settled : Settled keywordBoundary long [c, second] := fun behind _ =>
              (plain (second :: behind)).trans (mark_of_pair double behind)
            rw [List.singleton_append, mark_of_pair double] at finds
            exact settled.of_found split finds
          · have settled : Settled keywordBoundary short [c] := by
              intro behind spaced
              -- No operator goes on with a space.
              have apart : ¬ [second] <+: behind := by
                rintro ⟨tail, rfl⟩
                obtain rfl : second = ' ' := spaced second rfl
                exact absurd double (by unfold doubling?; split <;> simp)
              exact (plain behind).trans (mark_of_single double apart)
            rw [mark_of_single double front] at finds
            exact settled.of_found (single.symm.trans split) finds
      | none =>
          have settled : Settled keywordBoundary .illegal [c] := fun behind _ =>
            (plain behind).trans (mark_of_none known double behind)
          rw [mark_of_none known double] at finds
          exact settled.of_found (single.symm.trans split) finds

theorem found_of_blank {c : Char} (blank : isBlank c = true) (rest : List Char) :
    found keywordBoundary (c :: rest) = .token .whitespace ((c :: rest).takeWhile isBlank).length := by
  have noQuote : c ≠ '"' := by
    rintro rfl
    exact absurd blank (by decide)
  simp [found, noQuote, Scanner.not_digit_of_blank blank, blank]

theorem settled_of_found (split : text = word ++ rest)
    (finds : found keywordBoundary text = .token kind word.length) (more : kind ≠ .eof)
    (marked : kind ≠ .whitespace) : Settled keywordBoundary kind word := by
  cases text with
  | nil =>
      injection finds with same
      exact absurd same.symm more
  | cons c tail =>
      by_cases quote : c = '"'
      · subst quote
        rw [found, if_pos rfl] at finds
        exact settled_string split finds
      by_cases digit : isDigit c = true
      · rw [found, if_neg quote, if_pos digit] at finds
        exact settled_number digit split finds
      by_cases blank : isBlank c = true
      · rw [found_of_blank blank] at finds
        injection finds with same
        exact absurd same.symm marked
      by_cases letter : isLetter c = true
      · have begins : beginsIn isLetter (c :: tail) = true := letter
        exact settled_word begins split finds
      · have plain (rest : List Char) : found keywordBoundary (c :: rest) = Rules.mark (c :: rest) := by
          rw [found, if_neg quote, if_neg digit, if_neg blank, if_neg letter]
          rfl
        exact settled_mark plain split ((plain tail).symm.trans finds)

theorem quote_of_found {c : Char} (finds : found keywordBoundary (c :: text) = .token .string length) :
    c = '"' ∧ string text = .token .string length := by
  rw [found] at finds
  split_ifs at finds with quote digit blank letter
  · exact ⟨quote, finds⟩
  · cases Scanner.kind_of_number finds
  · cases finds
  · exact absurd (kind_of_word finds) (by decide)
  · exact absurd (kind_of_mark finds) (by decide)

theorem written_of_found (split : text = word ++ rest)
    (finds : found keywordBoundary text = .token kind word.length) (position : Position) :
    (⟨kind, position, lexeme kind word⟩ : Token).written.toList = word := by
  by_cases quoted : kind = .string
  · subst quoted
    cases text with
    | nil => cases finds
    | cons c tail =>
        obtain ⟨rfl, ends⟩ := quote_of_found finds
        obtain ⟨inside, rfl, -⟩ := quoted_of_string split ends
        simp [Token.written, lexeme]
  · simp [Token.written, lexeme, quoted]

end Rules

structure Token.Settled (keywordBoundary : Bool) (t : Token) : Prop where
  marked : t.kind ≠ .whitespace
  more : t.kind ≠ .eof
  again : Rules.Settled keywordBoundary t.kind t.written.toList

def Token.seen (t : Token) : TokenKind × String := (t.kind, t.text)

theorem visible_cons {t : Token} (marked : t.kind ≠ .whitespace) (rest : List Token) :
    visible (t :: rest) = t.seen :: visible rest := by
  simp [visible, marked, Token.seen]

theorem visible_blank {t : Token} (blank : t.kind = .whitespace) (rest : List Token) :
    visible (t :: rest) = visible rest := by
  simp [visible, blank]

namespace Rules

variable {keywordBoundary : Bool} {position : Position} {text word : List Char} {tokens : List Token}

theorem lexeme_written (t : Token) : lexeme t.kind t.written.toList = t.text := by
  by_cases quoted : t.kind = .string <;> simp [Token.written, lexeme, quoted]

theorem visible_written {t : Token} (marked : t.kind ≠ .whitespace) (position : Position)
    (rest : List Token) :
    visible (⟨t.kind, position, lexeme t.kind t.written.toList⟩ :: rest) = t.seen :: visible rest := by
  rw [lexeme_written]
  exact visible_cons (t := ⟨t.kind, position, t.text⟩) marked rest

theorem solid_of_outcome {result : Except LexFault (List Token)}
    (outcome : Outcome keywordBoundary position text result) (ends : result = .ok tokens) :
    (∀ t ∈ solid tokens, t.Settled keywordBoundary) ∧
      visible tokens = (solid tokens).map Token.seen ++ [(.eof, "")] := by
  induction outcome generalizing tokens with
  | finish position =>
      cases ends
      exact ⟨by simp [solid], by simp [solid, visible]⟩
  | fault => cases ends
  | @token position text word rest kind result split finds more _ ih =>
      cases result with
      | error fault => cases ends
      | ok others =>
          cases ends
          obtain ⟨settled, seen⟩ := ih rfl
          by_cases blank : kind = .whitespace
          · rw [visible_blank blank]
            simpa [solid, blank] using ih rfl
          · have first : Token.Settled keywordBoundary ⟨kind, position, lexeme kind word⟩ := by
              refine ⟨blank, more, ?_⟩
              rw [written_of_found split finds]
              exact settled_of_found split finds more blank
            have more : solid (⟨kind, position, lexeme kind word⟩ :: others) =
                ⟨kind, position, lexeme kind word⟩ :: solid others := by simp [solid, blank, more]
            rw [more]
            refine ⟨List.forall_mem_cons.mpr ⟨first, settled⟩, ?_⟩
            rw [visible_cons blank, List.map_cons, List.cons_append, seen]

theorem beginsIn_append {class? : Char → Bool} (some : word ≠ []) (rest : List Char) :
    beginsIn class? (word ++ rest) = beginsIn class? word := by
  cases word with
  | nil => exact absurd rfl some
  | cons c word => rfl

theorem unblank_of_settled {t : Token} (settled : t.Settled keywordBoundary) :
    t.written.toList ≠ [] ∧ beginsIn isBlank t.written.toList = false := by
  have finds := settled.again [] fun c same => by cases same
  rw [List.append_nil] at finds
  cases spelled : t.written.toList with
  | nil =>
      rw [spelled] at finds
      injection finds with same
      exact absurd same.symm settled.more
  | cons c word =>
      rw [spelled] at finds
      refine ⟨List.cons_ne_nil c word, ?_⟩
      cases blank : isBlank c with
      | false => exact blank
      | true =>
          rw [found_of_blank blank] at finds
          injection finds with same
          exact absurd same.symm settled.marked

theorem unblank_written (settled : ∀ t ∈ tokens, t.Settled keywordBoundary) :
    beginsIn isBlank (" ".intercalate (tokens.map Token.written)).toList = false := by
  match tokens with
  | [] => rfl
  | [t] => simpa using (unblank_of_settled (settled t List.mem_cons_self)).2
  | t :: u :: tokens =>
      obtain ⟨some, unblank⟩ := unblank_of_settled (settled t List.mem_cons_self)
      rw [List.map_cons, List.map_cons, String.intercalate_cons_cons, String.append_assoc,
        String.toList_append, beginsIn_append some]
      exact unblank

theorem outcome_space {result : Except LexFault (List Token)} (unblank : beginsIn isBlank text = false)
    (behind : Outcome keywordBoundary (position.advanceOver [' ']) text result) :
    Outcome keywordBoundary position (' ' :: text) (result.map (⟨.whitespace, position, " "⟩ :: ·)) := by
  have finds : found keywordBoundary (' ' :: text) = .token .whitespace [' '].length := by
    rw [found_of_blank (by decide), List.takeWhile_cons_of_pos (by decide), takeWhile_of_stop unblank]
  have split : ' ' :: text = [' '] ++ text := rfl
  exact .token split finds TokenKind.noConfusion behind

theorem outcome_written (settled : ∀ t ∈ tokens, t.Settled keywordBoundary) (position : Position) :
    ∃ again, Outcome keywordBoundary position (" ".intercalate (tokens.map Token.written)).toList
        (.ok again) ∧
      visible again = tokens.map Token.seen ++ [(.eof, "")] := by
  induction tokens generalizing position with
  | nil => exact ⟨_, .finish position, rfl⟩
  | cons t tokens ih =>
      have first := settled t List.mem_cons_self
      have others : ∀ u ∈ tokens, u.Settled keywordBoundary := fun u later =>
        settled u (List.mem_cons_of_mem t later)
      cases tokens with
      | nil =>
          have finds := first.again [] fun c same => by cases same
          rw [List.map_singleton, String.intercalate_singleton]
          rw [List.append_nil] at finds
          refine ⟨_, .token (List.append_nil _).symm finds first.more (.finish _), ?_⟩
          exact visible_written first.marked position _
      | cons u tokens =>
          have whole : (" ".intercalate ((t :: u :: tokens).map Token.written)).toList =
              t.written.toList ++ ' ' :: (" ".intercalate ((u :: tokens).map Token.written)).toList := by
            simp
          rw [whole]
          have finds := first.again (' ' :: (" ".intercalate ((u :: tokens).map Token.written)).toList)
            fun c same => (Option.some.inj same).symm
          obtain ⟨again, behind, seen⟩ :=
            ih others ((position.advanceOver t.written.toList).advanceOver [' '])
          have spaced := outcome_space (unblank_written others) behind
          refine ⟨_, .token rfl finds first.more spaced, (visible_written first.marked position _).trans ?_⟩
          rw [visible_blank rfl, seen]
          rfl

end Rules

/-- The tokens of a text, written out with a space between each two of them, have the same kinds and texts
when they are scanned again. -/
theorem written_tokens_read_back {keywordBoundary : Bool} {source : String} {tokens : List Token}
    (scanned : allTokens (Scanner.ofString keywordBoundary source) = .ok tokens) :
    ∃ again, allTokens (Scanner.ofString keywordBoundary (written tokens)) = .ok again ∧
      visible again = visible tokens := by
  have outcome := Scanner.outcome_allTokens (Scanner.stands_ofString keywordBoundary source)
  obtain ⟨settled, seen⟩ := Rules.solid_of_outcome outcome scanned
  obtain ⟨again, outcome', seen'⟩ := Rules.outcome_written settled Position.start
  exact ⟨again, Scanner.allTokens_of_outcome outcome' (Scanner.stands_ofString _ _), seen'.trans seen.symm⟩

theorem words_without_spaces_read_back :
    let tokens : List Token :=
      [⟨.identifier, ⟨1, 0, 0⟩, "x"⟩, ⟨.illegal, ⟨1, 1, 1⟩, "="⟩, ⟨.string, ⟨1, 2, 2⟩, "\\\""⟩,
        ⟨.number, ⟨1, 6, 6⟩, "1."⟩, ⟨.conjunction, ⟨1, 8, 8⟩, "and"⟩, ⟨.identifier, ⟨1, 11, 11⟩, "b"⟩,
        ⟨.eof, ⟨1, 12, 12⟩, ""⟩]
    allTokens (Scanner.ofString false "x=\"\\\"\"1.andb") = .ok tokens ∧
      written tokens = "x = \"\\\"\" 1. and b" ∧
      ∃ again, allTokens (Scanner.ofString false (written tokens)) = .ok again ∧
        visible again = visible tokens := by
  intro tokens
  have found : Rules.tokens? false 7 (.ofString "x=\"\\\"\"1.andb") = some tokens := by decide +kernel
  have scanned := Scanner.allTokens_of_rules (Scanner.stands_ofString false _) found
  exact ⟨scanned, by decide +kernel, written_tokens_read_back scanned⟩

end PredicateLang
