import PredicateLang.Proofs.Syntax.Writing
import PredicateLang.Proofs.Token.Supplies

set_option autoImplicit false

namespace PredicateLang

namespace Rules

def fixed : List (List Char × TokenKind) := keywords ++ (pairs ++ singles)

end Rules

def TokenKind.Takes (kind : TokenKind) (word : List Char) : Prop :=
  match kind with
  | .eof => word = []
  | .illegal | .whitespace => True
  | .identifier => word ≠ [] ∧ (∀ c ∈ word, isLetter c = true) ∧ word ∉ Rules.spellings
  | .string => ∃ inside, word = '"' :: (inside ++ ['"']) ∧ Rules.Open inside ∧ Rules.escaped inside = false
  | .number => beginsIn isDigit word = true ∧ ∀ c ∈ word, Rules.numeric c = true
  | kind => (word, kind) ∈ Rules.fixed

namespace Rules

variable {keywordBoundary : Bool} {kind : TokenKind} {text word rest : List Char} {length : Nat}

theorem takes_of_fixed (listed : (word, kind) ∈ fixed) : kind.Takes word := by
  have plain : ∀ entry ∈ fixed, entry.2 ∉
      [.eof, .illegal, .whitespace, .identifier, .string, .number] := by decide
  have other : kind ∉ [.eof, .illegal, .whitespace, .identifier, .string, .number] := plain _ listed
  cases kind <;> first | exact listed | exact absurd other (by decide)

theorem unspelled_of_found (finds : found keywordBoundary text = .token .identifier length) :
    text.take length ∉ spellings := by
  obtain ⟨letters, tail, rfl, some, all, stops⟩ := exists_run (begins_of_name finds)
  rw [found_of_run some all stops] at finds
  injection finds with named long
  cases known : keyword? keywordBoundary letters with
  | some entry =>
      rw [leading_of_some known] at named
      exact absurd named (plain_of_entry (listed_of_keyword known)).2.2.1
  | none =>
      rw [leading_of_none known] at long
      rw [← long, List.take_left]
      intro spelled
      obtain ⟨entry, listed, rfl⟩ := List.mem_map.mp spelled
      rw [keyword_of_listed listed] at known
      cases known

theorem takes_of_found (split : text = word ++ rest)
    (finds : found keywordBoundary text = .token kind word.length) : kind.Takes word := by
  have front : text.take word.length = word := by rw [split, List.take_left]
  cases text with
  | nil =>
      injection finds with same
      subst same
      exact (List.append_eq_nil_iff.mp split.symm).1
  | cons c tail =>
      by_cases quote : c = '"'
      · subst quote
        rw [found, if_pos rfl] at finds
        obtain rfl := Scanner.kind_of_string finds
        exact quoted_of_string split finds
      by_cases digit : isDigit c = true
      · rw [found, if_neg quote, if_pos digit] at finds
        obtain rfl := Scanner.kind_of_number finds
        obtain ⟨run, -⟩ := run_of_number finds
        rw [front] at run
        have all : ∀ d ∈ word, numeric d = true := fun d present => List.mem_takeWhile_imp (run ▸ present)
        rw [List.takeWhile_cons_of_pos (by simp [numeric, digit])] at run
        exact ⟨run ▸ digit, all⟩
      by_cases blank : isBlank c = true
      · rw [found_of_blank blank] at finds
        injection finds with same
        subst same
        trivial
      by_cases letter : isLetter c = true
      · have finds' := finds
        rw [found_of_letter letter] at finds'
        obtain listed | rfl := entry_of_word finds'
        · exact takes_of_fixed (List.mem_append_left _ (front ▸ listed))
        · obtain ⟨some, all⟩ := letters_of_found finds
          have unspelled := unspelled_of_found finds
          rw [front] at some all unspelled
          exact ⟨some, all, unspelled⟩
      · have marked : mark (c :: tail) = .token kind word.length := by
          rw [← finds, found, if_neg quote, if_neg digit, if_neg blank, if_neg letter]
          rfl
        obtain listed | rfl := entry_of_mark marked
        · exact takes_of_fixed (List.mem_append_right _ (front ▸ listed))
        · trivial

end Rules

/-- A position is where one gets to from the start of a text, and a word stands there. -/
def StandsAt (source : List Char) (position : Position) (word : List Char) : Prop :=
  ∃ before behind, source = before ++ (word ++ behind) ∧ position = Position.start.advanceOver before

theorem StandsAt.nil {source word : List Char} {position : Position} (there : StandsAt source position word) :
    StandsAt source position [] := by
  obtain ⟨before, behind, whole, place⟩ := there
  exact ⟨before, word ++ behind, whole, place⟩

def Lexed (source : List Char) : Except LexFault Token → Prop
  | .ok t => t.kind.Takes t.written.toList ∧ StandsAt source t.position t.written.toList
  | .error fault => StandsAt source fault.position []

namespace Scanner

variable {keywordBoundary : Bool} {source before text : List Char} {s : Scanner}

theorem lexed_of_token {t : Token} {next : Scanner} (whole : source = before ++ text)
    (stands : Stands keywordBoundary ⟨Position.start.advanceOver before, text⟩ s)
    (scanned : s.next = (.ok t, next)) :
    Lexed source (.ok t) ∧ ∃ before text, source = before ++ text ∧
      Stands keywordBoundary ⟨Position.start.advanceOver before, text⟩ next := by
  obtain ⟨word, rest, split, finds, same, behind⟩ := token_of_next stands scanned
  have written : t.written.toList = word := by
    rw [same]
    exact Rules.written_of_found split finds _
  have place : t.position = Position.start.advanceOver before := congrArg Token.position same
  constructor
  · rw [Lexed, written, place]
    exact ⟨Rules.takes_of_found split finds, before, rest, by rw [whole, split], rfl⟩
  · refine ⟨before ++ word, rest, by rw [whole, split, List.append_assoc], ?_⟩
    rwa [Position.advanceOver_append]

theorem lexed_of_stands (whole : source = before ++ text)
    (stands : Stands keywordBoundary ⟨Position.start.advanceOver before, text⟩ s) :
    ∀ result ∈ delivered s, Lexed source result := by
  fun_induction delivered s generalizing before text with
  | case1 s fault next scanned =>
      obtain ⟨-, -, place⟩ := fault_of_next stands scanned
      rw [List.forall_mem_singleton]
      exact ⟨before, text, whole, place⟩
  | case2 s t next scanned ends =>
      rw [List.forall_mem_singleton]
      exact (lexed_of_token whole stands scanned).1
  | case3 s t next scanned more ih =>
      obtain ⟨lexed, before, text, whole, behind⟩ := lexed_of_token whole stands scanned
      exact List.forall_mem_cons.mpr ⟨lexed, ih whole behind⟩

theorem lexed_of_delivered (keywordBoundary : Bool) (source : String) :
    ∀ result ∈ delivered (ofString keywordBoundary source), Lexed source.toList result :=
  lexed_of_stands (List.nil_append _).symm (stands_ofString keywordBoundary source)

end Scanner

end PredicateLang
