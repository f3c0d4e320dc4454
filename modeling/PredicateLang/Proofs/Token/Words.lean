import PredicateLang.Number.Count
import PredicateLang.Proofs.Token.Streams

set_option autoImplicit false

namespace PredicateLang

namespace Rules

variable {keywordBoundary : Bool}

inductive Begins (c : Char) (rest : List Char) : TokenKind → Nat → Prop
  | string {length : Nat} : Begins c rest .string length
  | number {length : Nat} : Begins c rest .number length
  | blank : Begins c rest .whitespace ((c :: rest).takeWhile isBlank).length
  | word {kind : TokenKind} {length : Nat} (noDigit : isDigit c = false) (letter : isLetter c = true)
      (listed : kind ∈ keywords.map (·.2) ∨ kind = .identifier) : Begins c rest kind length
  | mark {kind : TokenKind} {length : Nat}
      (listed : kind ∈ (pairs ++ singles).map (·.2) ∨ kind = .illegal) : Begins c rest kind length

theorem begins_of_found {c : Char} {rest : List Char} {kind : TokenKind} {length : Nat}
    (h : found keywordBoundary (c :: rest) = .token kind length) : Begins c rest kind length := by
  simp only [found] at h
  split_ifs at h with quote digit blank letter
  · cases Scanner.kind_of_string h
    exact .string
  · cases Scanner.kind_of_number h
    exact .number
  · cases h
    exact .blank
  · exact .word (by simpa using digit) letter (kind_of_word h)
  · exact .mark (kind_of_mark h)

theorem blank_of_found {text : List Char} {length : Nat}
    (h : found keywordBoundary text = .token .whitespace length) :
    ∀ c ∈ text.take length, isBlank c = true := by
  cases text with
  | nil => cases h
  | cons c rest =>
      cases begins_of_found h with
      | blank =>
          intro d taken
          rw [← List.prefix_iff_eq_take.mp (List.takeWhile_prefix _)] at taken
          exact List.mem_takeWhile_imp taken
      | word _ _ listed => exact absurd listed (by decide)
      | mark listed => exact absurd listed (by decide)

theorem nil_of_found {text : List Char} {length : Nat}
    (h : found keywordBoundary text = .token .eof length) : text = [] := by
  cases text with
  | nil => rfl
  | cons c rest =>
      cases begins_of_found h with
      | word _ _ listed => exact absurd listed (by decide)
      | mark listed => exact absurd listed (by decide)

theorem uncounted_of_found {text : List Char} {length : Nat}
    (h : found keywordBoundary text = .token .identifier length) :
    Count.read? (lexeme .identifier (text.take length)) = none := by
  cases text with
  | nil => cases h
  | cons c rest =>
      cases begins_of_found h with
      | word digit letter _ =>
          have sign : c ≠ '+' := by
            rintro rfl
            exact absurd letter (by decide +kernel)
          cases length with
          | zero => simp [lexeme, Count.read?]
          | succ length => simp [lexeme, Count.read?, sign, digit]
      | mark listed => exact absurd listed (by decide)

theorem uncounted_of_next (r : Remaining) (t : Token) (h : (next keywordBoundary r).1 = .ok t)
    (named : t.kind = .identifier) : Count.read? t.text = none := by
  rw [next] at h
  split at h
  · rename_i kind length what
    cases h
    obtain rfl : kind = .identifier := named
    exact uncounted_of_found what
  · cases h

theorem blank_of_tokens? {most : Nat} {r : Remaining} {tokens : List Token}
    (h : tokens? keywordBoundary most r = some tokens)
    (blanks : ∀ t ∈ tokens, t.kind = .whitespace ∨ t.kind = .eof) :
    ∀ c ∈ r.text, isBlank c = true := by
  induction most generalizing r tokens with
  | zero => cases h
  | succ most ih =>
      rw [tokens?, next] at h
      split at h
      · cases h
      · rename_i t behind found
        split at found <;> cases found
        rename_i kind length what
        split_ifs at h with ends
        · obtain rfl : kind = .eof := ends
          simp [nil_of_found what]
        · obtain ⟨rest, more, rfl⟩ := Option.map_eq_some_iff.mp h
          have first := blanks _ List.mem_cons_self
          obtain rfl : kind = .whitespace := first.resolve_right ends
          have others := ih more fun t later => blanks t (List.mem_cons_of_mem _ later)
          intro c present
          rw [← List.take_append_drop length r.text] at present
          rcases List.mem_append.mp present with taken | left
          · exact blank_of_found what c taken
          · exact others c left

end Rules

namespace Scanner

variable {keywordBoundary : Bool} {source : String} {tokens : List Token}

theorem uncounted_of_allTokens (h : allTokens (ofString keywordBoundary source) = .ok tokens) :
    ∀ t ∈ tokens, t.kind = .identifier → Count.read? t.text = none := by
  obtain ⟨most, found⟩ := rules_of_allTokens (stands_ofString keywordBoundary source) h
  exact Rules.forall_of_tokens? Rules.uncounted_of_next found

theorem blank_of_allTokens (h : allTokens (ofString keywordBoundary source) = .ok tokens)
    (blanks : ∀ t ∈ tokens, t.kind = .whitespace ∨ t.kind = .eof) :
    ∀ c ∈ source.toList, isBlank c = true := by
  obtain ⟨most, found⟩ := rules_of_allTokens (stands_ofString keywordBoundary source) h
  exact Rules.blank_of_tokens? found blanks

end Scanner

end PredicateLang
