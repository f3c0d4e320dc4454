import PredicateLang.Proofs.Token.Words

set_option autoImplicit false

namespace PredicateLang

theorem inRanges_apart {ranges others : List (Nat × Nat)} {c : Char}
    (apart : ∀ r ∈ ranges, ∀ other ∈ others, r.2 < other.1 ∨ other.2 < r.1)
    (inside : inRanges ranges c = true) : inRanges others c = false := by
  rw [Bool.eq_false_iff]
  intro also
  obtain ⟨r, member, within⟩ := List.any_eq_true.mp inside
  obtain ⟨other, member', within'⟩ := List.any_eq_true.mp also
  have separate := apart r member other member'
  simp only [Bool.and_eq_true, decide_eq_true_eq] at within within'
  omega

theorem not_letter_of_blank {c : Char} (blank : isBlank c = true) : isLetter c = false :=
  inRanges_apart (by decide +kernel) blank

theorem not_letter_of_digit {c : Char} (digit : isDigit c = true) : isLetter c = false := by
  have bounds : '0' ≤ c ∧ c ≤ '9' := by simpa [isDigit] using digit
  have lower : 48 ≤ c.toNat := bounds.1
  have upper : c.toNat ≤ 57 := bounds.2
  have within : inRanges [(48, 57)] c = true := by simp [inRanges, lower, upper]
  exact inRanges_apart (by decide +kernel) within

theorem not_letter_quote : isLetter '"' = false := by decide +kernel

namespace Rules

variable {keywordBoundary : Bool}

def spellings : List (List Char) := keywords.map Prod.fst

theorem found_of_letter {c : Char} (letter : isLetter c = true) (rest : List Char) :
    found keywordBoundary (c :: rest) = word keywordBoundary (c :: rest) := by
  have noQuote : c ≠ '"' := by
    rintro rfl
    exact absurd letter (Bool.eq_false_iff.mp not_letter_quote)
  have noDigit : isDigit c = false := by
    rw [Bool.eq_false_iff]
    intro digit
    simp [not_letter_of_digit digit] at letter
  have noBlank : isBlank c = false := by
    rw [Bool.eq_false_iff]
    intro blank
    simp [not_letter_of_blank blank] at letter
  simp [found, noQuote, noDigit, noBlank, letter]

theorem word_of_letters {name : List Char} (all : ∀ c ∈ name, isLetter c = true)
    (free : name ∉ spellings) : word true name = .token .identifier name.length := by
  have letters : name.takeWhile isLetter = name := List.takeWhile_eq_self_iff.mpr all
  have none : begins? (keywords.filter (allows true name)) name = none := by
    rw [begins?, Option.map_eq_none_iff, List.find?_eq_none]
    intro entry present front
    obtain ⟨member, long⟩ := List.mem_filter.mp present
    rw [List.isPrefixOf_iff_prefix] at front
    -- With the boundary only keywords as long as the word are tried.
    have same : entry.1 = name := front.eq_of_length (by simpa [allows] using long)
    exact free (List.mem_map.mpr ⟨entry, member, same⟩)
  rw [word_eq, letters, none]
  rfl

theorem letters_of_found {text : List Char} {length : Nat}
    (h : found keywordBoundary text = .token .identifier length) :
    text.take length ≠ [] ∧ ∀ c ∈ text.take length, isLetter c = true := by
  cases text with
  | nil => cases h
  | cons c rest =>
      cases begins_of_found h with
      | mark listed => exact absurd listed (by decide)
      | word _ letter _ =>
          rw [found_of_letter letter, word_eq] at h
          cases front : begins? (keywords.filter (allows keywordBoundary
              ((c :: rest).takeWhile isLetter))) (c :: rest) with
          | some what =>
              rw [front] at h
              replace h : what = .token .identifier length := h
              subst h
              obtain ⟨entry, present, same⟩ := Option.map_eq_some_iff.mp front
              have member := (List.mem_filter.mp (List.mem_of_find?_eq_some present)).1
              have kinds : entry.2 ∈ keywords.map Prod.snd := List.mem_map_of_mem member
              have named : entry.2 = .identifier := (Found.token.inj same).1
              exact absurd (named ▸ kinds) (by decide)
          | none =>
              rw [front] at h
              cases h
              rw [← List.prefix_iff_eq_take.mp (List.takeWhile_prefix _)]
              exact ⟨by simp [letter], fun d inside => List.mem_takeWhile_imp inside⟩

theorem letters_of_next (r : Remaining) (t : Token) (h : (next keywordBoundary r).1 = .ok t)
    (named : t.kind = .identifier) :
    t.text.toList ≠ [] ∧ ∀ c ∈ t.text.toList, isLetter c = true := by
  rw [next] at h
  split at h
  · rename_i kind length what
    cases h
    obtain rfl : kind = .identifier := named
    simpa [lexeme] using letters_of_found what
  · cases h

end Rules

theorem Scanner.letters_of_allTokens {keywordBoundary : Bool} {source : String} {tokens : List Token}
    (h : allTokens (ofString keywordBoundary source) = .ok tokens) :
    ∀ t ∈ tokens, t.kind = .identifier →
      t.text.toList ≠ [] ∧ ∀ c ∈ t.text.toList, isLetter c = true := by
  obtain ⟨most, found⟩ := rules_of_allTokens (stands_ofString keywordBoundary source) h
  exact Rules.forall_of_tokens? Rules.letters_of_next found

end PredicateLang
