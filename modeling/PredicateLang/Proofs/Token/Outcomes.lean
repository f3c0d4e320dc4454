import PredicateLang.Proofs.Token.Letters

set_option autoImplicit false

namespace PredicateLang

namespace Rules

inductive Outcome (keywordBoundary : Bool) :
    Position → List Char → Except LexFault (List Token) → Prop
  | finish (position : Position) : Outcome keywordBoundary position [] (.ok [⟨.eof, position, ""⟩])
  | fault {position : Position} {text : List Char} {cause : LexCause} {length : Nat}
      (finds : found keywordBoundary text = .fault cause length) :
      Outcome keywordBoundary position text (.error ⟨position, cause⟩)
  | token {position : Position} {text word rest : List Char} {kind : TokenKind}
      {result : Except LexFault (List Token)} (split : text = word ++ rest)
      (finds : found keywordBoundary text = .token kind word.length) (more : kind ≠ .eof)
      (others : Outcome keywordBoundary (position.advanceOver word) rest result) :
      Outcome keywordBoundary position text (result.map (⟨kind, position, lexeme kind word⟩ :: ·))

variable {keywordBoundary : Bool} {position : Position} {text word rest : List Char}
  {kind : TokenKind}

theorem next_of_token (split : text = word ++ rest)
    (finds : found keywordBoundary text = .token kind word.length) :
    next keywordBoundary ⟨position, text⟩ =
      (.ok ⟨kind, position, lexeme kind word⟩, ⟨position.advanceOver word, rest⟩) := by
  simp only [next, finds, Remaining.drop]
  rw [split, List.take_left, List.drop_left]

end Rules

namespace Scanner

open Rules

variable {keywordBoundary : Bool} {position : Position} {text : List Char} {s : Scanner}

theorem fault_of_next {fault : LexFault} {next : Scanner}
    (stands : Stands keywordBoundary ⟨position, text⟩ s) (scanned : s.next = (.error fault, next)) :
    ∃ length, found keywordBoundary text = .fault fault.cause length ∧ fault.position = position := by
  obtain ⟨word, rest, split, held, reported⟩ := token_obeys stands.midway
  rw [next_eq] at scanned
  cases finds : found keywordBoundary text with
  | fault cause length =>
      rw [finds] at reported
      rw [reported.2] at scanned
      cases scanned
      exact ⟨length, rfl, rfl⟩
  | token kind length =>
      rw [finds] at reported
      rw [reported.2] at scanned
      cases scanned

theorem token_of_next {t : Token} {next : Scanner}
    (stands : Stands keywordBoundary ⟨position, text⟩ s) (scanned : s.next = (.ok t, next)) :
    ∃ word rest, text = word ++ rest ∧ found keywordBoundary text = .token t.kind word.length ∧
      t = ⟨t.kind, position, lexeme t.kind word⟩ ∧
        Stands keywordBoundary ⟨position.advanceOver word, rest⟩ next := by
  obtain ⟨word, rest, split, held, reported⟩ := token_obeys stands.midway
  rw [next_eq] at scanned
  cases finds : found keywordBoundary text with
  | fault cause length =>
      rw [finds] at reported
      rw [reported.2] at scanned
      cases scanned
  | token kind length =>
      rw [finds] at reported
      rw [reported.2] at scanned
      cases scanned
      exact ⟨word, rest, split, by rw [reported.1], rfl, held.stands⟩

theorem outcome_allTokens (stands : Stands keywordBoundary ⟨position, text⟩ s) :
    Outcome keywordBoundary position text (allTokens s) := by
  fun_induction allTokens s generalizing position text with
  | case1 s fault next scanned =>
      obtain ⟨length, finds, rfl⟩ := fault_of_next stands scanned
      exact .fault finds
  | case2 s t next scanned ends =>
      obtain ⟨word, rest, split, finds, same, -⟩ := token_of_next stands scanned
      rw [ends] at finds same
      obtain rfl := nil_of_found finds
      obtain ⟨rfl, -⟩ := List.append_eq_nil_iff.mp split.symm
      rw [same]
      exact .finish position
  | case3 s t next scanned more ih =>
      obtain ⟨word, rest, split, finds, same, behind⟩ := token_of_next stands scanned
      rw [same]
      exact .token split finds more (ih behind)

theorem allTokens_of_outcome {result : Except LexFault (List Token)}
    (outcome : Outcome keywordBoundary position text result)
    (stands : Stands keywordBoundary ⟨position, text⟩ s) : allTokens s = result := by
  induction outcome generalizing s with
  | finish position =>
      obtain ⟨returned, -⟩ := next_of_rules stands
      exact allTokens_of_end (Prod.ext returned rfl) rfl
  | fault finds =>
      obtain ⟨fails, -⟩ := next_of_rules stands
      rw [Rules.next, finds] at fails
      exact allTokens_of_pull (Prod.ext fails rfl)
  | token split finds more _ ih =>
      obtain ⟨returned, behind⟩ := next_of_rules stands
      rw [next_of_token split finds] at returned behind
      rw [allTokens_of_more (Prod.ext returned rfl) more, ih behind]

end Scanner

end PredicateLang
