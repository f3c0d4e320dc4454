import PredicateLang.Proofs.Token.Numerals

set_option autoImplicit false

namespace PredicateLang

namespace Rules

def tokens? (keywordBoundary : Bool) : Nat → Remaining → Option (List Token)
  | 0, _ => none
  | most + 1, r =>
      match next keywordBoundary r with
      | (.error _, _) => none
      | (.ok t, behind) =>
          if t.kind = .eof then some [t] else (tokens? keywordBoundary most behind).map (t :: ·)

variable {keywordBoundary : Bool} {r : Remaining} {tokens : List Token}

theorem forall_of_tokens? {good : Token → Prop}
    (each : ∀ r t, (next keywordBoundary r).1 = .ok t → good t) {most : Nat}
    (h : tokens? keywordBoundary most r = some tokens) : ∀ t ∈ tokens, good t := by
  induction most generalizing r tokens with
  | zero => cases h
  | succ most ih =>
      rw [tokens?] at h
      split at h
      · cases h
      · rename_i t behind found
        -- The first token is one of the rules, the others are so by induction.
        have first := each r t (congrArg Prod.fst found)
        split_ifs at h with ends
        · cases h
          simpa using first
        · obtain ⟨rest, more, rfl⟩ := Option.map_eq_some_iff.mp h
          intro u present
          rcases List.mem_cons.mp present with rfl | later
          · exact first
          · exact ih more u later

end Rules

namespace Scanner

open Rules

variable {keywordBoundary : Bool} {r : Remaining} {s : Scanner} {tokens : List Token}

theorem allTokens_of_rules {most : Nat} (stands : Stands keywordBoundary r s)
    (h : tokens? keywordBoundary most r = some tokens) : allTokens s = .ok tokens := by
  induction most generalizing r s tokens with
  | zero => cases h
  | succ most ih =>
      obtain ⟨result, still⟩ := next_of_rules stands
      rw [tokens?] at h
      split at h
      · cases h
      · rename_i t behind found
        rw [found] at result still
        have pulled : s.next = (.ok t, s.next.2) := Prod.ext result rfl
        split_ifs at h with ends
        · cases h
          exact allTokens_of_end pulled ends
        · obtain ⟨rest, more, rfl⟩ := Option.map_eq_some_iff.mp h
          rw [allTokens_of_more pulled ends, ih still more]
          rfl

theorem rules_of_allTokens (stands : Stands keywordBoundary r s) (h : allTokens s = .ok tokens) :
    ∃ most, tokens? keywordBoundary most r = some tokens := by
  fun_induction allTokens s generalizing r tokens with
  | case1 s fault supply pulled => cases h
  | case2 s t supply pulled ends =>
      cases h
      obtain ⟨result, -⟩ := next_of_rules stands
      have found : (Rules.next keywordBoundary r).1 = .ok t := result.symm.trans (congrArg Prod.fst pulled)
      refine ⟨1, ?_⟩
      rw [tokens?]
      split <;> rename_i other <;> rw [other] at found <;> cases found
      rw [if_pos ends]
  | case3 s t supply pulled more ih =>
      obtain ⟨rest, others, rfl⟩ : ∃ rest, allTokens supply = .ok rest ∧ t :: rest = tokens := by
        cases others : allTokens supply with
        | error fault =>
            rw [others] at h
            cases h
        | ok rest =>
            rw [others] at h
            cases h
            exact ⟨rest, rfl, rfl⟩
      obtain ⟨result, still⟩ := next_of_rules stands
      have pulled' : s.next = (.ok t, supply) := pulled
      rw [pulled'] at result still
      obtain ⟨most, behind⟩ := ih still others
      refine ⟨most + 1, ?_⟩
      rw [tokens?]
      split <;> rename_i other <;> rw [other] at result still behind <;> cases result
      rw [if_neg more, behind]
      rfl

end Scanner

def Token.Legible (t : Token) : Prop := t.kind = .number → (Double.read? t.text).isSome = true

theorem Rules.legible_of_next {keywordBoundary : Bool} (r : Remaining) (t : Token)
    (h : (next keywordBoundary r).1 = .ok t) : t.Legible := by
  rw [next] at h
  split at h
  · rename_i kind length what
    cases h
    rintro rfl
    exact isSome_read?_of_found what
  · cases h

theorem Scanner.legible_of_allTokens {keywordBoundary : Bool} {source : String}
    {tokens : List Token} (h : allTokens (ofString keywordBoundary source) = .ok tokens) :
    ∀ t ∈ tokens, t.Legible := by
  obtain ⟨most, found⟩ := rules_of_allTokens (stands_ofString keywordBoundary source) h
  exact Rules.forall_of_tokens? Rules.legible_of_next found

end PredicateLang
