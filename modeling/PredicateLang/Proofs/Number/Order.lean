import Mathlib
import PredicateLang.Number.Double

set_option autoImplicit false

namespace PredicateLang.Double

open Float.Model UnpackedFloat

abbrev Rank := ℤ ×ₗ ℤ ×ₗ ℤ

def Rank.signed (sign : Sign) (size exponent mantissa : ℤ) : Rank :=
  -- Below zero the larger number comes first.
  toLex (sign.apply size, toLex (sign.apply exponent, sign.apply mantissa))

def rankOf? : UnpackedFloat → Option Rank
  | .notANumber => none
  | .infinity sign => some (.signed sign 2 0 0)
  | .zero _ => some (.signed .positive 0 0 0)
  | .finite sign m e _ => some (.signed sign 1 e m)

theorem compare_neg (i j : ℤ) : compare (-i) (-j) = (compare i j).swap := by
  rw [← cmp_eq_compare, ← cmp_eq_compare, cmp_swap]
  exact StrictAnti.cmp_map_eq (fun _ _ => Int.neg_lt_neg) i j

theorem compare_natCast (m n : Nat) : compare (m : ℤ) n = compare m n := by
  rw [← cmp_eq_compare, ← cmp_eq_compare]
  exact StrictMono.cmp_map_eq (fun _ _ => Int.ofNat_lt.mpr) m n

theorem Rank.compare_signed (sign sign' : Sign) (size e m size' e' m' : ℤ) :
    compare (signed sign size e m) (signed sign' size' e' m') =
      (compare (sign.apply size) (sign'.apply size')).then
        ((compare (sign.apply e) (sign'.apply e')).then (compare (sign.apply m) (sign'.apply m'))) := by
  simp [signed, Prod.Lex.compare_def, compareLex, compareOn]

theorem Rank.compare_finite (sign : Sign) (m n : Nat) (e f : ℤ) :
    compare (signed sign 1 e m) (signed sign 1 f n) =
      match sign with
      | .positive => (compare e f).then (compare m n)
      | .negative => ((compare e f).then (compare m n)).swap := by
  rw [compare_signed]
  cases sign with
  | negative => simp [Sign.apply, compare_neg, compare_natCast, Ordering.swap_then]
  | positive => simp [Sign.apply, compare_natCast]

theorem compare_of_ranks {a b : UnpackedFloat} {r s : Rank} (one : rankOf? a = some r)
    (other : rankOf? b = some s) : a.compare b = some (compare r s) := by
  cases a with
  | notANumber => cases one
  | infinity sign | zero sign =>
      cases one
      cases b with
      | notANumber => cases other
      | infinity sign' | zero sign' | finite sign' =>
          cases other
          cases sign <;> cases sign' <;> rfl
  | finite sign m e =>
      cases one
      cases b with
      | notANumber => cases other
      | infinity sign' | zero sign' =>
          cases other
          cases sign <;> cases sign' <;> rfl
      | finite sign' n f =>
          cases other
          -- Only numbers of one sign have to be compared further.
          cases sign <;> cases sign'
          · exact congrArg some (Rank.compare_finite .negative m n e f).symm
          · rfl
          · rfl
          · exact congrArg some (Rank.compare_finite .positive m n e f).symm

theorem compare_of_none {a b : UnpackedFloat} (missing : rankOf? a = none ∨ rankOf? b = none) :
    a.compare b = none := by
  rcases missing with missing | missing
  · cases a with
    | notANumber => rfl
    | infinity | zero | finite => cases missing
  · cases b with
    | notANumber => cases a <;> rfl
    | infinity | zero | finite => cases missing

theorem compare_eq_some_iff {a b : UnpackedFloat} {o : Ordering} :
    a.compare b = some o ↔ ∃ r s, rankOf? a = some r ∧ rankOf? b = some s ∧ compare r s = o := by
  constructor
  · intro compared
    cases one : rankOf? a with
    | none => rw [compare_of_none (.inl one)] at compared; cases compared
    | some r =>
        cases other : rankOf? b with
        | none => rw [compare_of_none (.inr other)] at compared; cases compared
        | some s =>
            rw [compare_of_ranks one other] at compared
            exact ⟨r, s, rfl, rfl, Option.some.inj compared⟩
  · rintro ⟨r, s, one, other, rfl⟩
    exact compare_of_ranks one other

def rank? (x : Float) : Option Rank := rankOf? x.toModel.unpack

theorem rank?_eq_none_iff {x : Float} : rank? x = none ↔ x.isNaN = true := by
  change rankOf? x.toModel.unpack = none ↔ x.toModel.unpack.isNaN = true
  cases x.toModel.unpack <;> simp [rankOf?, UnpackedFloat.isNaN]

theorem lt_iff {x y : Float} :
    x < y ↔ ∃ r s, rank? x = some r ∧ rank? y = some s ∧ r < s := by
  have model : x < y ↔ x.toModel.unpack.compare y.toModel.unpack = some .lt := by
    change (decide (UnpackedFloat.lt _ _ = true)) = true ↔ _
    simp [UnpackedFloat.lt]
  rw [model, compare_eq_some_iff]
  simp only [compare_lt_iff_lt, rank?]

theorem beq_iff {x y : Float} :
    (x == y) = true ↔ ∃ r s, rank? x = some r ∧ rank? y = some s ∧ r = s := by
  have model : (x == y) = true ↔ x.toModel.unpack.compare y.toModel.unpack = some .eq := by
    change UnpackedFloat.beq _ _ = true ↔ _
    simp [UnpackedFloat.beq]
  rw [model, compare_eq_some_iff]
  simp only [compare_eq_iff_eq, rank?]

theorem beq_self_iff {x : Float} : (x == x) = true ↔ x.isNaN = false := by
  rw [beq_iff, ← Bool.not_eq_true, ← rank?_eq_none_iff]
  cases rank? x <;> simp

instance instPartialEquivBEqFloat : PartialEquivBEq Float where
  symm same := by
    obtain ⟨r, s, one, other, rfl⟩ := beq_iff.mp same
    exact beq_iff.mpr ⟨r, r, other, one, rfl⟩
  trans same same' := by
    obtain ⟨r, s, one, other, rfl⟩ := beq_iff.mp same
    obtain ⟨r', s', other', last, rfl⟩ := beq_iff.mp same'
    exact beq_iff.mpr ⟨r, r', one, last, Option.some.inj (other.symm.trans other')⟩

theorem le_iff {x y : Float} :
    x ≤ y ↔ ∃ r s, rank? x = some r ∧ rank? y = some s ∧ r ≤ s := by
  have model : x ≤ y ↔ ∃ o, x.toModel.unpack.compare y.toModel.unpack = some o ∧ o.isLE = true := by
    change (decide (UnpackedFloat.le _ _ = true)) = true ↔ _
    simp [UnpackedFloat.le, Option.any_eq_true]
  rw [model]
  simp only [compare_eq_some_iff]
  constructor
  · rintro ⟨o, ⟨r, s, one, other, rfl⟩, least⟩
    exact ⟨r, s, one, other, compare_le_iff_le.mp (Ordering.ne_gt_iff_isLE.mpr least)⟩
  · rintro ⟨r, s, one, other, least⟩
    exact ⟨_, ⟨r, s, one, other, rfl⟩, Ordering.ne_gt_iff_isLE.mp (compare_le_iff_le.mpr least)⟩

end PredicateLang.Double
