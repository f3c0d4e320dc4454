import Mathlib.Data.List.TakeWhile
import PredicateLang.Number.Double
import PredicateLang.Proofs.Token.Rules

set_option autoImplicit false

namespace PredicateLang

open Rules

theorem DecimalNumeral.isSome_ofText? {run : List Char} (all : ∀ c ∈ run, numeric c = true)
    (points : run.count '.' ≤ 1) (first : beginsIn isDigit run = true) :
    (ofText? run).isSome = true := by
  have digits : run.takeWhile isDigit ≠ [] := by
    cases run with
    | nil => cases first
    | cons c run =>
        have digit : isDigit c = true := first
        simp [digit]
  have whole : run.takeWhile isDigit ++ run.dropWhile isDigit = run := List.takeWhile_append_dropWhile
  cases behind : run.dropWhile isDigit with
  | nil => simp [ofText?, behind, digits, exponentOf?]
  | cons c fraction =>
      rw [behind] at whole
      have stops : isDigit c = false := by
        have head := List.head?_dropWhile_not isDigit run
        rwa [behind] at head
      have point : c = '.' := by
        have held := all c (by rw [← whole]; simp)
        simpa [numeric, stops] using held
      subst point
      -- The only point is used up, so nothing but digits can stand behind it.
      have others : '.' ∉ fraction := by
        rw [← whole, List.count_append, List.count_cons_self] at points
        rw [← List.count_eq_zero]
        omega
      have fractional : ∀ d ∈ fraction, isDigit d = true := by
        intro d present
        have held := all d (by rw [← whole]; simp [present])
        have other : d ≠ '.' := fun same => others (same ▸ present)
        simpa [numeric, other] using held
      have ends : fraction.dropWhile isDigit = [] := List.dropWhile_eq_nil_iff.mpr fractional
      simp [ofText?, behind, digits, exponentOf?, ends]

theorem Numeral.isSome_signed? {run : List Char} (first : beginsIn isDigit run = true)
    (decimal : (DecimalNumeral.ofText? run).isSome = true) :
    (signed? (String.ofList run)).isSome = true := by
  have unsigned : (unsigned? run).isSome = true := by simp [unsigned?, decimal]
  rw [signed?, String.toList_ofList]
  split
  · cases first
  · cases first
  · simpa using unsigned

namespace Rules

theorem entry_of_begins {words : List (List Char × TokenKind)} {text : List Char}
    {other kind : TokenKind} {least length : Nat}
    (h : (begins? words text).getD (.token other least) = .token kind length) :
    (text.take length, kind) ∈ words ∨ kind = other := by
  cases front : begins? words text with
  | none =>
      rw [front] at h
      cases h
      exact .inr rfl
  | some found =>
      rw [front] at h
      replace h : found = .token kind length := h
      subst h
      obtain ⟨entry, present, same⟩ := Option.map_eq_some_iff.mp front
      cases same
      have begins := List.find?_some present
      rw [← List.prefix_iff_eq_take.mp (List.isPrefixOf_iff_prefix.mp begins)]
      exact .inl (List.mem_of_find?_eq_some present)

theorem entry_of_word {keywordBoundary : Bool} {text : List Char} {kind : TokenKind} {length : Nat}
    (h : word keywordBoundary text = .token kind length) :
    (text.take length, kind) ∈ keywords ∨ kind = .identifier := by
  rw [word_eq] at h
  exact (entry_of_begins h).imp_left fun listed => (List.mem_filter.mp listed).1

theorem entry_of_mark {text : List Char} {kind : TokenKind} {length : Nat}
    (h : mark text = .token kind length) :
    (text.take length, kind) ∈ pairs ++ singles ∨ kind = .illegal := by
  have together : (begins? pairs text).or (begins? singles text) =
      begins? (pairs ++ singles) text := by
    rw [begins?, begins?, begins?, List.find?_append, Option.map_or]
  rw [mark, together] at h
  exact entry_of_begins h

theorem kind_of_word {keywordBoundary : Bool} {text : List Char} {kind : TokenKind} {length : Nat}
    (h : word keywordBoundary text = .token kind length) :
    kind ∈ keywords.map (·.2) ∨ kind = .identifier :=
  (entry_of_word h).imp_left List.mem_map_of_mem

theorem kind_of_mark {text : List Char} {kind : TokenKind} {length : Nat}
    (h : mark text = .token kind length) :
    kind ∈ (pairs ++ singles).map (·.2) ∨ kind = .illegal :=
  (entry_of_mark h).imp_left List.mem_map_of_mem

theorem number_of_found {keywordBoundary : Bool} {text : List Char} {length : Nat}
    (h : found keywordBoundary text = .token .number length) :
    beginsIn isDigit text = true ∧ number text = .token .number length := by
  unfold found at h
  split at h
  · cases h
  · split_ifs at h with quote digit blank letter
    · cases Scanner.kind_of_string h
    · exact ⟨digit, h⟩
    · cases h
    · exact absurd (kind_of_word h) (by decide)
    · exact absurd (kind_of_mark h) (by decide)

theorem run_of_number {text : List Char} {length : Nat} (h : number text = .token .number length) :
    text.take length = text.takeWhile numeric ∧ malformed (text.takeWhile numeric) = false := by
  rw [number_of_run rfl] at h
  cases spoilt : (List.range ((text.takeWhile numeric).length + 1)).find? fun n =>
      malformed ((text.takeWhile numeric).take n) with
  | some n =>
      rw [spoilt] at h
      cases h
  | none =>
      rw [spoilt] at h
      cases h
      rw [List.find?_range_eq_none] at spoilt
      have sound := spoilt (text.takeWhile numeric).length (by omega)
      rw [List.take_length] at sound
      exact ⟨(List.prefix_iff_eq_take.mp (List.takeWhile_prefix _)).symm, by simpa using sound⟩

theorem isSome_read?_of_found {keywordBoundary : Bool} {text : List Char} {length : Nat}
    (h : found keywordBoundary text = .token .number length) :
    (Double.read? (lexeme .number (text.take length))).isSome = true := by
  obtain ⟨digit, counted⟩ := number_of_found h
  obtain ⟨taken, sound⟩ := run_of_number counted
  have first : beginsIn isDigit (text.takeWhile numeric) = true := by
    cases text with
    | nil => cases digit
    | cons c text =>
        have digit : isDigit c = true := digit
        simp [numeric, beginsIn, digit]
  have points : (text.takeWhile numeric).count '.' ≤ 1 := by
    simp only [malformed, Bool.or_eq_false_iff, decide_eq_false_iff_not] at sound
    omega
  have all : ∀ c ∈ text.takeWhile numeric, numeric c = true := fun c => List.mem_takeWhile_imp
  have read := Numeral.isSome_signed? first (DecimalNumeral.isSome_ofText? all points first)
  rw [taken, lexeme, if_neg (by decide), Double.read?, Option.isSome_map]
  exact read

end Rules

end PredicateLang
