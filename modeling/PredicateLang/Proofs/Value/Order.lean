import PredicateLang.Proofs.Number.Integers
import PredicateLang.Proofs.Value.Equality

set_option autoImplicit false

namespace PredicateLang

namespace Value

/-- The values that can be ordered: a NaN has no place among them. -/
def Ordered : Value → Prop
  | .int _ | .bool _ | .char _ => True
  | .double x => x.isNaN = false
  | _ => False

def rank? (v : Value) : Option Double.Rank := v.asOrdered?.bind Double.rank?

theorem rank?_int (i : Int64) : (Value.int i).rank? = some (Double.rankOfInt i.toInt) :=
  Double.rank?_ofInt64 i

theorem ordered_iff {v : Value} : v.Ordered ↔ ∃ r, v.rank? = some r := by
  cases v with
  | int i => exact ⟨fun _ => ⟨_, rank?_int i⟩, fun _ => trivial⟩
  | bool b => exact ⟨fun _ => ⟨_, rank?_int (intOfBool b)⟩, fun _ => trivial⟩
  | char c => exact ⟨fun _ => ⟨_, Double.rank?_ofUInt64 c.val.toUInt64⟩, fun _ => trivial⟩
  | double x =>
      change x.isNaN = false ↔ ∃ r, Double.rank? x = some r
      rw [← Bool.not_eq_true, ← Double.rank?_eq_none_iff, ← Option.ne_none_iff_exists']
  | string | object | array | dataRef | attrRef => simp [Ordered, rank?, asOrdered?]

theorem rank?_unified (v : Value) : v.unified.rank? = v.rank? := by
  cases v <;> rfl

theorem rank?_eq_of_strictEq {v w : Value} (same : v.strictEq w = true) : v.rank? = w.rank? := by
  cases v with
  | double x =>
      obtain ⟨y, rfl, same⟩ := strictEq_double_iff.mp same
      obtain ⟨r, s, one, other, rfl⟩ := Double.beq_iff.mp same
      exact one.trans other.symm
  | object fields =>
      obtain ⟨others, rfl, -⟩ := strictEq_object_iff.mp same
      rfl
  | array items =>
      obtain ⟨others, rfl, -⟩ := strictEq_array_iff.mp same
      rfl
  | _ =>
      cases eq_of_strictEq same trivial
      rfl

theorem rank?_eq_of_reprEq {v w : Value} (same : v.reprEq w = true) : v.rank? = w.rank? := by
  rw [reprEq_unified] at same
  rw [← rank?_unified v, ← rank?_unified w]
  exact rank?_eq_of_strictEq same

end Value

namespace Comparison

def Relates {α : Type} [LinearOrder α] : Comparison → α → α → Prop
  | .lt, x, y => x < y
  | .gt, x, y => y < x
  | .le, x, y => x ≤ y
  | .ge, x, y => y ≤ x
  | .eq, x, y => x = y
  | .ne, x, y => x ≠ y

theorem relates_trichotomy {α : Type} [LinearOrder α] (x y : α) :
    ∃! comparison, comparison ∈ [Comparison.lt, .eq, .gt] ∧ comparison.Relates x y := by
  simp only [List.mem_cons, List.not_mem_nil, or_false]
  rcases lt_trichotomy x y with below | same | above
  · refine ⟨.lt, ⟨.inl rfl, below⟩, ?_⟩
    rintro comparison ⟨rfl | rfl | rfl, said⟩
    · rfl
    · exact absurd said (ne_of_lt below)
    · exact absurd said (lt_asymm below)
  · refine ⟨.eq, ⟨.inr (.inl rfl), same⟩, ?_⟩
    rintro comparison ⟨rfl | rfl | rfl, said⟩
    · exact absurd same (ne_of_lt said)
    · rfl
    · exact absurd same (ne_of_gt said)
  · refine ⟨.gt, ⟨.inr (.inr rfl), above⟩, ?_⟩
    rintro comparison ⟨rfl | rfl | rfl, said⟩
    · exact absurd said (lt_asymm above)
    · exact absurd said (ne_of_gt above)
    · rfl

theorem holdsFor_iff {comparison : Comparison} (order : comparison.isEquality = false) {x y : Float} :
    comparison.holdsFor x y = true ↔
      ∃ r s, Double.rank? x = some r ∧ Double.rank? y = some s ∧ comparison.Relates r s := by
  cases comparison with
  | lt => exact decide_eq_true_iff.trans Double.lt_iff
  | le => exact decide_eq_true_iff.trans Double.le_iff
  | gt =>
      refine decide_eq_true_iff.trans (Double.lt_iff.trans ?_)
      exact ⟨fun ⟨s, r, one, other, less⟩ => ⟨r, s, other, one, less⟩,
        fun ⟨r, s, one, other, less⟩ => ⟨s, r, other, one, less⟩⟩
  | ge =>
      refine decide_eq_true_iff.trans (Double.le_iff.trans ?_)
      exact ⟨fun ⟨s, r, one, other, least⟩ => ⟨r, s, other, one, least⟩,
        fun ⟨r, s, one, other, least⟩ => ⟨s, r, other, one, least⟩⟩
  | eq | ne => cases order

theorem holds_iff_holdsFor {comparison : Comparison} (order : comparison.isEquality = false)
    {left right : Value} :
    comparison.holds left right = true ↔
      ∃ x y, left.asOrdered? = some x ∧ right.asOrdered? = some y ∧ comparison.holdsFor x y = true := by
  cases comparison with
  | eq | ne => cases order
  | _ =>
      simp only [holds]
      split
      · rename_i x y one other
        simp [one, other]
      · rename_i missing
        constructor
        · intro same
          cases same
        · rintro ⟨x, y, one, other, -⟩
          exact absurd other (missing x y one)

theorem holds_iff {comparison : Comparison} (order : comparison.isEquality = false)
    {left right : Value} :
    comparison.holds left right = true ↔
      ∃ r s, left.rank? = some r ∧ right.rank? = some s ∧ comparison.Relates r s := by
  simp only [holds_iff_holdsFor order, holdsFor_iff order, Value.rank?, Option.bind_eq_some_iff]
  constructor
  · rintro ⟨x, y, one, other, r, s, first, second, related⟩
    exact ⟨r, s, ⟨x, one, first⟩, ⟨y, other, second⟩, related⟩
  · rintro ⟨r, s, ⟨x, one, first⟩, ⟨y, other, second⟩, related⟩
    exact ⟨x, y, one, other, r, s, first, second, related⟩

theorem holds_of_ranks {comparison : Comparison} (order : comparison.isEquality = false)
    {left right : Value} {r s : Double.Rank} (one : left.rank? = some r) (other : right.rank? = some s) :
    comparison.holds left right = true ↔ comparison.Relates r s := by
  rw [holds_iff order, one, other]
  simp

theorem lt_answer_swap (left right : Value) :
    Comparison.lt.answer left right = Comparison.gt.answer right left := by
  simp only [answer, holds]
  cases left.asOrdered? <;> cases right.asOrdered? <;> rfl

theorem le_answer_swap (left right : Value) :
    Comparison.le.answer left right = Comparison.ge.answer right left := by
  simp only [answer, holds]
  cases left.asOrdered? <;> cases right.asOrdered? <;> rfl

section

variable {left right : Value} {r s : Double.Rank}

theorem answer_eq_one_iff {comparison : Comparison} (order : comparison.isEquality = false)
    (one : left.rank? = some r) (other : right.rank? = some s) :
    comparison.answer left right = 1 ↔ comparison.Relates r s :=
  answer_eq_one.trans (holds_of_ranks order one other)

theorem answer_eq_zero_iff {comparison : Comparison} (order : comparison.isEquality = false)
    (one : left.rank? = some r) (other : right.rank? = some s) :
    comparison.answer left right = 0 ↔ ¬comparison.Relates r s := by
  rw [answer_eq_zero, ← Bool.not_eq_true, holds_of_ranks order one other]

theorem le_answer_complement (one : left.rank? = some r) (other : right.rank? = some s) :
    Comparison.le.answer left right = 1 - Comparison.gt.answer left right := by
  apply answer_complement
  rw [Bool.eq_iff_iff, Bool.not_eq_true', ← Bool.not_eq_true, holds_of_ranks rfl one other,
    holds_of_ranks rfl one other]
  exact not_lt.symm

end

theorem holds_int_iff (comparison : Comparison) {a b : Int64}
    (inside : a.toInt ∈ Set.Icc (-2 ^ 53) (2 ^ 53)) (inside' : b.toInt ∈ Set.Icc (-2 ^ 53) (2 ^ 53)) :
    comparison.holds (.int a) (.int b) = true ↔ comparison.Relates a.toInt b.toInt := by
  have one := Value.rank?_int a
  have other := Value.rank?_int b
  have strict := Double.rankOfInt_strictMonoOn
  have equal : Value.reprEq (.int a) (.int b) = true ↔ a.toInt = b.toInt :=
    beq_iff_eq.trans Int64.toInt_inj.symm
  cases comparison with
  | lt => exact (holds_of_ranks rfl one other).trans (strict.lt_iff_lt inside inside')
  | gt => exact (holds_of_ranks rfl one other).trans (strict.lt_iff_lt inside' inside)
  | le => exact (holds_of_ranks rfl one other).trans (strict.le_iff_le inside inside')
  | ge => exact (holds_of_ranks rfl one other).trans (strict.le_iff_le inside' inside)
  | eq => exact equal
  | ne =>
      change (!Value.reprEq (.int a) (.int b)) = true ↔ a.toInt ≠ b.toInt
      rw [Bool.not_eq_true', ← Bool.not_eq_true, equal]

theorem answer_of_unordered {comparison : Comparison} (order : comparison.isEquality = false)
    {left right : Value} (unordered : ¬(left.Ordered ∧ right.Ordered)) :
    comparison.answer left right = 0 := by
  rw [answer_eq_zero, ← Bool.not_eq_true, holds_iff order]
  rintro ⟨r, s, one, other, -⟩
  exact unordered ⟨Value.ordered_iff.mpr ⟨r, one⟩, Value.ordered_iff.mpr ⟨s, other⟩⟩

theorem le_answer_trans {left middle right : Value} (first : Comparison.le.answer left middle = 1)
    (second : Comparison.le.answer middle right = 1) : Comparison.le.answer left right = 1 := by
  obtain ⟨r, s, one, other, least⟩ := (holds_iff rfl).mp (answer_eq_one.mp first)
  obtain ⟨s', t, other', last, least'⟩ := (holds_iff rfl).mp (answer_eq_one.mp second)
  obtain rfl : s = s' := Option.some.inj (other.symm.trans other')
  exact (answer_eq_one_iff rfl one last).mpr (le_trans (α := Double.Rank) least least')

theorem orderings_cohere :
    (∀ (comparison : Comparison) (left right : Value),
        comparison.Answers left right (comparison.answer left right)) ∧
      (∀ left right : Value, ¬(left.Ordered ∧ right.Ordered) →
        ∀ order ∈ [Comparison.lt, .gt, .le, .ge], order.answer left right = 0) ∧
      (∀ left right : Value, left.Ordered → right.Ordered →
        Comparison.lt.answer left right = Comparison.gt.answer right left ∧
          Comparison.le.answer left right = Comparison.ge.answer right left ∧
          Comparison.le.answer left right = 1 - Comparison.gt.answer left right ∧
          (Comparison.le.answer left right = 1 ∨ Comparison.le.answer right left = 1) ∧
          (Comparison.eq.answer left right = 1 →
            Comparison.le.answer left right = 1 ∧ Comparison.ge.answer left right = 1 ∧
              Comparison.lt.answer left right = 0 ∧ Comparison.gt.answer left right = 0)) ∧
      ∀ left middle right : Value, Comparison.le.answer left middle = 1 →
        Comparison.le.answer middle right = 1 → Comparison.le.answer left right = 1 := by
  refine ⟨answers_answer, ?unordered, ?ordered, fun _ _ _ => le_answer_trans⟩
  case unordered =>
    intro left right unordered order among
    refine answer_of_unordered ?_ unordered
    simp only [List.mem_cons, List.not_mem_nil, or_false] at among
    rcases among with rfl | rfl | rfl | rfl <;> rfl
  case ordered =>
    intro left right first second
    obtain ⟨r, one⟩ := Value.ordered_iff.mp first
    obtain ⟨s, other⟩ := Value.ordered_iff.mp second
    refine ⟨lt_answer_swap _ _, le_answer_swap _ _, le_answer_complement one other, ?_, ?_⟩
    · rw [answer_eq_one_iff rfl one other, answer_eq_one_iff rfl other one]
      exact le_total (α := Double.Rank) r s
    · intro same
      obtain rfl : r = s := by
        have equal := Value.rank?_eq_of_reprEq (answer_eq_one.mp same)
        rw [one, other] at equal
        exact Option.some.inj equal
      rw [answer_eq_one_iff rfl one other, answer_eq_one_iff rfl one other,
        answer_eq_zero_iff rfl one other, answer_eq_zero_iff rfl one other]
      exact ⟨le_refl _, le_refl _, lt_irrefl _, lt_irrefl _⟩

theorem true_below_letter_below_number :
    Comparison.le.answer (.bool true) (.double (Double.ofInt 98)) = 1 ∧
      Comparison.gt.answer (.int 1) (.bool true) = 0 ∧
      Comparison.ge.answer (.double Double.notANumber) (.char 'a') = 0 := by
  obtain ⟨-, unordered, ordered, transitive⟩ := orderings_cohere
  obtain ⟨-, -, -, -, equal⟩ := ordered (.int 1) (.bool true) trivial trivial
  refine ⟨?_, (equal (by decide +kernel)).2.2.2, ?_⟩
  · exact transitive _ (.char 'a') _ (by decide +kernel) (by decide +kernel)
  · refine unordered _ _ ?_ .ge (by simp)
    rintro ⟨number, -⟩
    exact absurd number (by change ¬Double.notANumber.isNaN = false; decide +kernel)

theorem integer_orderings (a b : Int64) :
    (∀ comparison : Comparison,
        comparison.Answers (.int a) (.int b) (comparison.answer (.int a) (.int b))) ∧
      (a ≤ b → Comparison.le.answer (.int a) (.int b) = 1 ∧ Comparison.gt.answer (.int a) (.int b) = 0) ∧
      (Comparison.lt.answer (.int a) (.int b) = 1 → a < b) ∧
      (a.toInt ∈ Set.Icc (-2 ^ 53) (2 ^ 53) → b.toInt ∈ Set.Icc (-2 ^ 53) (2 ^ 53) →
        (Comparison.lt.answer (.int a) (.int b) = if a < b then 1 else 0) ∧
          (Comparison.gt.answer (.int a) (.int b) = if b < a then 1 else 0) ∧
          (Comparison.le.answer (.int a) (.int b) = if a ≤ b then 1 else 0) ∧
          (Comparison.ge.answer (.int a) (.int b) = if b ≤ a then 1 else 0) ∧
          ∃! comparison, comparison ∈ [Comparison.lt, .eq, .gt] ∧
            comparison.answer (.int a) (.int b) = 1) := by
  have one := Value.rank?_int a
  have other := Value.rank?_int b
  refine ⟨fun comparison => answers_answer comparison _ _, ?least, ?less, ?exact⟩
  case least =>
    intro least
    have ranks := Double.rankOfInt_monotone (Int64.le_iff_toInt_le.mp least)
    rw [answer_eq_one_iff rfl one other, answer_eq_zero_iff rfl one other]
    exact ⟨ranks, not_lt.mpr ranks⟩
  case less =>
    intro less
    rw [answer_eq_one_iff rfl one other] at less
    exact Int64.lt_iff_toInt_lt.mpr (Double.rankOfInt_monotone.reflect_lt less)
  case exact =>
    intro inside inside'
    have own (comparison : Comparison) := comparison.holds_int_iff inside inside'
    refine ⟨answer_eq_ite ?_, answer_eq_ite ?_, answer_eq_ite ?_, answer_eq_ite ?_, ?_⟩
    · exact (own .lt).trans Int64.lt_iff_toInt_lt.symm
    · exact (own .gt).trans Int64.lt_iff_toInt_lt.symm
    · exact (own .le).trans Int64.le_iff_toInt_le.symm
    · exact (own .ge).trans Int64.le_iff_toInt_le.symm
    · simp only [answer_eq_one, own]
      exact relates_trichotomy a.toInt b.toInt

theorem orderings_of_largest_exact :
    (Comparison.le.answer (.int 9007199254740992) (.int 9007199254740993) = 1 ∧
        Comparison.gt.answer (.int 9007199254740992) (.int 9007199254740993) = 0) ∧
      (9007199254740991 : Int64) < 9007199254740992 ∧
      ∃! comparison, comparison ∈ [Comparison.lt, .eq, .gt] ∧
        comparison.answer (.int 9007199254740991) (.int 9007199254740992) = 1 := by
  obtain ⟨-, least, -, -⟩ := integer_orderings 9007199254740992 9007199254740993
  obtain ⟨-, -, less, inside⟩ := integer_orderings 9007199254740991 9007199254740992
  obtain ⟨-, -, -, -, unique⟩ := inside ⟨by decide +kernel, by decide +kernel⟩
    ⟨by decide +kernel, by decide +kernel⟩
  exact ⟨least (by decide +kernel), less (by decide +kernel), unique⟩

end Comparison

end PredicateLang
