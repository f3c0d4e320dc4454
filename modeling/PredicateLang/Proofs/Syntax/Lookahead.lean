import PredicateLang.Proofs.Syntax.Unambiguity
import PredicateLang.Syntax.Parser

set_option autoImplicit false

namespace PredicateLang

namespace Cursor

open Grammar

variable {σ : Type} [TokenSupply σ]

omit [TokenSupply σ] in
theorem bind_ok {α β : Type} {p : Parse σ α} {f : α → Parse σ β} {c next : Cursor σ} {b : β}
    (h : (p >>= f) c = (.ok b, next)) :
    ∃ a after, p c = (.ok a, after) ∧ f a after = (.ok b, next) := by
  rw [bind_apply] at h
  cases found : p c with
  | mk result after =>
      rw [found] at h
      cases result with
      | error fault => cases h
      | ok a => exact ⟨a, after, rfl, h⟩

def upcoming (c : Cursor σ) : List Token :=
  match _found : advance c with
  | (.error _, _) => []
  | (.ok t, next) => if t.kind = .eof then [t] else t :: upcoming next
termination_by c.left
decreasing_by
  rename_i more
  have smaller := (left_advance_ok _found).1
  rw [weight_of_ne more] at smaller
  omega

theorem upcoming_of_error {c next : Cursor σ} {fault : ParseFault}
    (h : advance c = (.error fault, next)) : upcoming c = [] := by
  rw [upcoming]
  split
  · rfl
  · rename_i other
    rw [h] at other
    cases other

theorem upcoming_of_ok {c next : Cursor σ} {t : Token} (h : advance c = (.ok t, next)) :
    upcoming c = if t.kind = .eof then [t] else t :: upcoming next := by
  rw [upcoming]
  split
  · rename_i other
    rw [h] at other
    cases other
  · rename_i other
    rw [h] at other
    cases other
    rfl

theorem upcoming_congr {c c' : Cursor σ} (same : advance c = advance c') :
    upcoming c = upcoming c' := by
  cases found : advance c with
  | mk result next =>
      cases result with
      | error fault => rw [upcoming_of_error found, upcoming_of_error (same.symm.trans found)]
      | ok t => rw [upcoming_of_ok found, upcoming_of_ok (same.symm.trans found)]

theorem advance_of_cons {c : Cursor σ} {t : Token} {rest : List Token}
    (front : upcoming c = t :: rest) :
    ∃ next, advance c = (.ok t, next) ∧ (t.kind ≠ .eof → upcoming next = rest) := by
  cases found : advance c with
  | mk result next =>
      cases result with
      | error fault =>
          rw [upcoming_of_error found] at front
          cases front
      | ok u =>
          rw [upcoming_of_ok found] at front
          by_cases last : u.kind = .eof
          · rw [if_pos last] at front
            cases front
            exact ⟨next, rfl, fun more => absurd last more⟩
          · rw [if_neg last] at front
            cases front
            exact ⟨next, rfl, fun _ => rfl⟩

theorem giveBack_of_advance {c next : Cursor σ} {t : Token} (h : advance c = (.ok t, next)) :
    ∃ back, giveBack next = (.ok (), back) ∧ upcoming back = upcoming c := by
  obtain ⟨-, free, held⟩ := left_advance_ok h
  -- An illegal token would have been reported instead, so the cursor will not object to this one.
  have legal : t.kind ≠ .illegal := by
    intro illegal
    unfold advance at h
    split at h
    · cases h
    · split at h
      · cases h
      · rename_i other
        cases h
        exact other illegal
  refine ⟨{ next with last := none, returned := some t }, ?_, upcoming_congr ?_⟩
  · simp [giveBack, free, held]
  · rw [h]
    obtain ⟨supply, last, returned⟩ := next
    simp only at free held
    simp [advance, pull, legal, free, held]

theorem takeIf_accepts (accept : TokenKind → Bool) {c : Cursor σ} {t : Token} {rest : List Token}
    (front : upcoming c = t :: rest) (accepted : accept t.kind = true)
    (apart : accept .eof = false) :
    ∃ next, takeIf accept c = (.ok (some t), next) ∧ upcoming next = rest := by
  obtain ⟨next, found, behind⟩ := advance_of_cons front
  refine ⟨next, ?_, behind fun last => ?_⟩
  · simp only [takeIf, bind_apply, found, accepted, if_true]
    rfl
  · simp [last, apart] at accepted

theorem takeIf_declines (accept : TokenKind → Bool) {c : Cursor σ} {t : Token} {rest : List Token}
    (front : upcoming c = t :: rest) (refused : accept t.kind = false) :
    ∃ next, takeIf accept c = (.ok none, next) ∧ upcoming next = upcoming c := by
  obtain ⟨next, found, -⟩ := advance_of_cons front
  obtain ⟨back, gave, same⟩ := giveBack_of_advance found
  refine ⟨back, ?_, same⟩
  simp only [takeIf, bind_apply, found, refused, Bool.false_eq_true, if_false, gave]
  rfl

theorem takeIf_some {accept : TokenKind → Bool} {c next : Cursor σ} {t : Token}
    (h : takeIf accept c = (.ok (some t), next)) (apart : accept .eof = false) :
    upcoming c = t :: upcoming next ∧ accept t.kind = true := by
  obtain ⟨u, after, found, h⟩ := bind_ok h
  by_cases accepted : accept u.kind = true
  · rw [if_pos accepted] at h
    cases h
    have more : t.kind ≠ .eof := by
      intro last
      simp [last, apart] at accepted
    rw [upcoming_of_ok found, if_neg more]
    exact ⟨rfl, accepted⟩
  · rw [if_neg accepted] at h
    obtain ⟨_, back, _, h⟩ := bind_ok h
    cases h

theorem takeIf_none {accept : TokenKind → Bool} {c next : Cursor σ}
    (h : takeIf accept c = (.ok none, next)) : upcoming next = upcoming c := by
  obtain ⟨u, after, found, h⟩ := bind_ok h
  by_cases accepted : accept u.kind = true
  · rw [if_pos accepted] at h
    cases h
  · rw [if_neg accepted] at h
    obtain ⟨back, gave, same⟩ := giveBack_of_advance found
    obtain ⟨_, last, gave', h⟩ := bind_ok h
    rw [gave] at gave'
    cases gave'
    cases h
    exact same

theorem skipBlanks_finds {c : Cursor σ} {t : Token} {rest : List Token}
    (front : strip (upcoming c) = t :: rest) :
    ∃ next, skipBlanks c = (.ok (), next) ∧ upcoming next = t :: rest := by
  fun_induction skipBlanks c with
  | case1 c fault next found =>
      rw [upcoming_of_error found] at front
      cases front
  | case2 c u next found blank ih =>
      rw [upcoming_of_ok found, if_neg (by simp [blank])] at front
      exact ih (by simpa [strip, blank] using front)
  | case3 c u next found visible =>
      obtain ⟨back, gave, same⟩ := giveBack_of_advance found
      refine ⟨back, gave, ?_⟩
      rw [same, ← front, upcoming_of_ok found]
      split <;> exact (strip_cons visible _).symm

theorem skipBlanks_ok {c next : Cursor σ} (h : skipBlanks c = (.ok (), next)) :
    upcoming next = strip (upcoming c) := by
  fun_induction skipBlanks c with
  | case1 c fault next' found => cases h
  | case2 c u next' found blank ih =>
      rw [ih h, upcoming_of_ok found, if_neg (by simp [blank])]
      simp [strip, blank]
  | case3 c u next' found visible =>
      obtain ⟨back, gave, same⟩ := giveBack_of_advance found
      rw [gave] at h
      cases h
      rw [same, upcoming_of_ok found]
      split <;> exact (strip_cons visible _).symm

theorem operator_accepts (accept : TokenKind → Bool) {c : Cursor σ} {t : Token} {rest : List Token}
    (front : strip (upcoming c) = t :: rest) (accepted : accept t.kind = true)
    (apart : accept .eof = false) :
    ∃ next, operator accept c = (.ok (some t), next) ∧ upcoming next = rest := by
  obtain ⟨middle, skipped, visible⟩ := skipBlanks_finds front
  obtain ⟨next, took, behind⟩ := takeIf_accepts accept visible accepted apart
  exact ⟨next, by simp [operator, bind_apply, skipped, took], behind⟩

theorem operator_declines (accept : TokenKind → Bool) {c : Cursor σ} {t : Token}
    {rest : List Token} (front : strip (upcoming c) = t :: rest) (refused : accept t.kind = false) :
    ∃ next, operator accept c = (.ok none, next) ∧ upcoming next = strip (upcoming c) := by
  obtain ⟨middle, skipped, visible⟩ := skipBlanks_finds front
  obtain ⟨next, took, behind⟩ := takeIf_declines accept visible refused
  exact ⟨next, by simp [operator, bind_apply, skipped, took], by rw [behind, visible, front]⟩

theorem operator_ok {accept : TokenKind → Bool} {c next : Cursor σ} {found : Option Token}
    (h : operator accept c = (.ok found, next)) :
    ∃ middle, upcoming middle = strip (upcoming c) ∧ takeIf accept middle = (.ok found, next) := by
  obtain ⟨_, middle, skipped, took⟩ := bind_ok h
  exact ⟨middle, skipBlanks_ok skipped, took⟩

theorem operator_some {accept : TokenKind → Bool} {c next : Cursor σ} {op : Token}
    (h : operator accept c = (.ok (some op), next)) (apart : accept .eof = false) :
    ∃ blanks, Blanks blanks ∧ upcoming c = blanks ++ op :: upcoming next ∧
      accept op.kind = true := by
  obtain ⟨middle, stripped, took⟩ := operator_ok h
  obtain ⟨front, accepted⟩ := takeIf_some took apart
  obtain ⟨blanks, blank, whole⟩ := exists_blanks (upcoming c)
  exact ⟨blanks, blank, by rw [← front, stripped]; exact whole, accepted⟩

theorem operator_none {accept : TokenKind → Bool} {c next : Cursor σ}
    (h : operator accept c = (.ok none, next)) :
    ∃ blanks, Blanks blanks ∧ upcoming c = blanks ++ upcoming next := by
  obtain ⟨middle, stripped, took⟩ := operator_ok h
  obtain ⟨blanks, blank, whole⟩ := exists_blanks (upcoming c)
  exact ⟨blanks, blank, by rw [takeIf_none took, stripped]; exact whole⟩

theorem operand_ok {op : Token} {level : Parse σ (Option Node)} {c next : Cursor σ} {node : Node}
    (h : operand op level c = (.ok node, next)) :
    ∃ middle, upcoming middle = strip (upcoming c) ∧ level middle = (.ok (some node), next) := by
  obtain ⟨_, middle, skipped, h⟩ := bind_ok h
  obtain ⟨found, last, parsed, h⟩ := bind_ok h
  cases found with
  | none => cases h
  | some node =>
      cases h
      exact ⟨middle, skipBlanks_ok skipped, parsed⟩

theorem operand_finds (op : Token) {level : Parse σ (Option Node)} {c : Cursor σ} {t : Token}
    {rest : List Token} {node : Node} {good : Cursor σ → Prop}
    (front : strip (upcoming c) = t :: rest)
    (parses : ∀ middle, upcoming middle = t :: rest →
      ∃ next, level middle = (.ok (some node), next) ∧ good next) :
    ∃ next, operand op level c = (.ok node, next) ∧ good next := by
  obtain ⟨middle, skipped, visible⟩ := skipBlanks_finds front
  obtain ⟨next, parsed, fine⟩ := parses middle visible
  refine ⟨next, ?_, fine⟩
  simp only [operand, bind_apply, skipped, parsed]
  rfl

end Cursor

end PredicateLang
