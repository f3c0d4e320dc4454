import Mathlib
import PredicateLang.Number.Double

set_option autoImplicit false

namespace PredicateLang.Double

open Float.Model UnpackedFloat

theorem isFinite_packComponents {spec : Format} {sign : Sign} {exponent : BitVec spec.exponentBits}
    (mantissa : BitVec spec.mantissaBitsWithoutImplicit) (inside : exponent ≠ -1#_) :
    (UnpackedFloat.unpack spec (packComponents spec sign exponent mantissa)).isFinite = true := by
  delta UnpackedFloat.unpack
  rw [unpackExponent_packComponents]
  dsimp only
  rw [if_neg inside]
  split
  · split <;> rfl
  · rfl

theorem ofNat_inside {w k : Nat} (small : k + 1 < 2 ^ w) : BitVec.ofNat w k ≠ -1#w := by
  intro same
  have numbers := congrArg BitVec.toNat same
  rw [BitVec.toNat_ofNat, Nat.mod_eq_of_lt (by omega), BitVec.neg_one_eq_allOnes,
    BitVec.toNat_allOnes] at numbers
  omega

theorem zero_inside (spec : Format) : (0 : BitVec spec.exponentBits) ≠ -1#_ := by
  have room : 0 + 1 < 2 ^ spec.exponentBits :=
    Nat.pow_le_pow_right (n := 2) (by decide) spec.he
  exact ofNat_inside room

theorem isFinite_pack {spec : Format} {sign : Sign} {m : Nat} {e : Int} (pos : 0 < m)
    (room : (e + spec.exponentBias + spec.mantissaBitsWithoutImplicit).toNat + 1 < 2 ^ spec.exponentBits) :
    (UnpackedFloat.unpack spec (UnpackedFloat.pack spec (.finite sign m e pos))).isFinite = true := by
  have packed : UnpackedFloat.pack spec (.finite sign m e pos) =
      if m.log2 + 1 = spec.mantissaBits then
        packComponents spec sign
          (BitVec.ofNat _ (e + spec.exponentBias + spec.mantissaBitsWithoutImplicit).toNat)
          (BitVec.ofNat _ m)
      else packComponents spec sign 0#_ (BitVec.ofNat _ m) :=
    if_neg (Nat.not_le_of_lt room)
  rw [packed]
  split
  · exact isFinite_packComponents _ (ofNat_inside room)
  · exact isFinite_packComponents _ (zero_inside _)

theorem sign_packComponents {spec : Format} (sign : Sign) (exponent : BitVec spec.exponentBits)
    (mantissa : BitVec spec.mantissaBitsWithoutImplicit) :
    Sign.ofBitVec (unpackSign (packComponents spec sign exponent mantissa)) = sign := by
  have kept : unpackSign (packComponents spec sign exponent mantissa) = sign.toBitVec := by
    ext i hi
    obtain rfl : i = 0 := by omega
    simp [unpackSign, packComponents, BitVec.getLsbD_append, BitVec.getElem_append]
  rw [kept]
  cases sign <;> rfl

theorem toNat_implicit {m : Nat} (long : 2 ^ 52 ≤ m) (short : m < 2 ^ 53) :
    (1#1 ++ BitVec.ofNat 52 m).toNat = m := by
  rw [BitVec.toNat_append, ← Nat.shiftLeft_add_eq_or_of_lt (BitVec.isLt _), BitVec.toNat_ofNat]
  change 1 <<< 52 + m % 2 ^ 52 = m
  omega

theorem pack_normal {sign : Sign} {m : Nat} {e : Int} {biased : Nat} (pos : 0 < m) (digits : m.log2 = 52)
    (place : (biased : Int) = e + 1075) (small : biased < 2 ^ 11 - 1) :
    UnpackedFloat.pack .binary64 (.finite sign m e pos) =
      packComponents .binary64 sign (BitVec.ofNat 11 biased) (BitVec.ofNat 52 m) := by
  have same : (e + Format.binary64.exponentBias + Format.binary64.mantissaBitsWithoutImplicit).toNat =
      biased := by
    change (e + (1023 : Nat) + (52 : Nat)).toNat = biased
    omega
  simp only [UnpackedFloat.pack, same, digits]
  rw [if_neg (by omega)]
  exact if_pos rfl

theorem unpack_pack {sign : Sign} {m : Nat} {e : Int} (pos : 0 < m) (long : 2 ^ 52 ≤ m)
    (short : m < 2 ^ 53) (low : -1074 ≤ e) (high : e ≤ 971) :
    UnpackedFloat.unpack .binary64 (UnpackedFloat.pack .binary64 (.finite sign m e pos)) =
      .finite sign m e pos := by
  have digits : m.log2 = 52 := (Nat.log2_eq_iff (Nat.ne_of_gt pos)).mpr ⟨long, short⟩
  obtain ⟨biased, place⟩ : ∃ biased : Nat, (biased : Int) = e + 1075 :=
    ⟨(e + 1075).toNat, Int.toNat_of_nonneg (by omega)⟩
  have exponent : (BitVec.ofNat 11 biased).toNat = biased := by
    rw [BitVec.toNat_ofNat]
    omega
  have inside : BitVec.ofNat 11 biased ≠ -1#11 := ofNat_inside (by omega)
  have normal : BitVec.ofNat 11 biased ≠ 0#11 := by
    intro same
    have numbers := congrArg BitVec.toNat same
    rw [exponent, BitVec.toNat_zero] at numbers
    omega
  rw [pack_normal pos digits place (by omega)]
  delta UnpackedFloat.unpack
  dsimp only
  simp only [unpackExponent_packComponents, unpackMantissa_packComponents, sign_packComponents]
  rw [if_neg inside, if_neg normal]
  simp only [toNat_implicit long short, exponent, place]
  congr 1
  change e + 1075 - ((1023 : Nat) + (52 : Nat)) = e
  omega

def Shifted (n k : Nat) (em : ExtendedMantissa) : Prop :=
  ∃ rest, n = em.mantissa * 2 ^ k + rest ∧ rest < 2 ^ k ∧
    (em.roundBit = true ↔ 2 ^ k ≤ 2 * rest) ∧
    (em.stickyBit = true ↔ 2 * rest ≠ 0 ∧ 2 * rest ≠ 2 ^ k)

theorem shifted_start (n : Nat) : Shifted n 0 ⟨n, false, false⟩ := ⟨0, by simp⟩

theorem Shifted.step {n k : Nat} {em : ExtendedMantissa} (shifted : Shifted n k em) :
    Shifted n (k + 1) em.shiftRightOne := by
  obtain ⟨rest, split, small, round, sticky⟩ := shifted
  have halves := Nat.div_add_mod em.mantissa 2
  have bit : em.mantissa % 2 = 0 ∨ em.mantissa % 2 = 1 := Nat.mod_two_eq_zero_or_one _
  refine ⟨em.mantissa % 2 * 2 ^ k + rest, ?_, ?_, ?_, ?_⟩
  · change n = em.mantissa / 2 * 2 ^ (k + 1) + _
    rw [split, Nat.pow_succ]
    conv_lhs => rw [← halves]
    ring
  · rw [Nat.pow_succ]
    rcases bit with zero | one
    · rw [zero]; omega
    · rw [one]; omega
  · change (em.mantissa % 2 != 0) = true ↔ _
    rw [Nat.pow_succ]
    rcases bit with zero | one
    · rw [zero]; simp; omega
    · rw [one]; simp; omega
  · change (em.roundBit || em.stickyBit) = true ↔ _
    rw [Bool.or_eq_true, round, sticky, Nat.pow_succ]
    rcases bit with zero | one
    · rw [zero]; omega
    · rw [one]; omega

theorem shifted_shift (n k : Nat) : Shifted n k ((⟨n, false, false⟩ : ExtendedMantissa) >>> k) := by
  induction k with
  | zero => exact shifted_start n
  | succ k ih => exact ih.step

theorem Shifted.nearest {n k : Nat} {em : ExtendedMantissa} (shifted : Shifted n k em) :
    2 * n ≤ (2 * em.roundedMantissa + 1) * 2 ^ k ∧ 2 * em.roundedMantissa * 2 ^ k ≤ 2 * n + 2 ^ k := by
  obtain ⟨rest, rfl, small, round, sticky⟩ := shifted
  have chosen : (em.roundedMantissa = em.mantissa ∧ 2 * rest ≤ 2 ^ k) ∨
      (em.roundedMantissa = em.mantissa + 1 ∧ 2 ^ k ≤ 2 * rest) := by
    obtain ⟨m, roundBit, stickyBit⟩ := em
    cases roundBit with
    | false =>
        have down : ExtendedMantissa.roundedMantissa ⟨m, false, stickyBit⟩ = m := by
          cases stickyBit <;> rfl
        simp only [Bool.false_eq_true, false_iff] at round
        exact .inl ⟨down, by omega⟩
    | true =>
        have half : 2 ^ k ≤ 2 * rest := round.mp rfl
        cases stickyBit with
        | false =>
            -- Exactly one half goes to the even neighbour.
            have even : ExtendedMantissa.roundedMantissa ⟨m, true, false⟩ = m + m % 2 := rfl
            simp only [Bool.false_eq_true, false_iff] at sticky
            rw [even]
            change (m + m % 2 = m ∧ _) ∨ (m + m % 2 = m + 1 ∧ _)
            omega
        | true => exact .inr ⟨rfl, half⟩
  rcases chosen with ⟨down, half⟩ | ⟨up, half⟩
  · rw [down]
    constructor <;> linarith
  · rw [up]
    constructor <;> linarith

theorem targetExponent_eq (total : Int) :
    Format.binary64.targetExponent total = max (total - 53) (-1074) := rfl

theorem totalExponent_eq (m : Nat) (e : Int) : totalExponent m e = m.log2 + 1 + e := rfl

theorem shiftLeft_pos {m : Nat} (pos : 0 < m) (k : Nat) : 0 < m <<< k := by
  rw [Nat.shiftLeft_eq]
  exact Nat.mul_pos pos (Nat.two_pow_pos k)

theorem log2_shiftLeft {m : Nat} (pos : 0 < m) (k : Nat) : (m <<< k).log2 = m.log2 + k := by
  induction k with
  | zero => rfl
  | succ k ih =>
      have some : m <<< k ≠ 0 := Nat.ne_of_gt (shiftLeft_pos pos k)
      rw [Nat.shiftLeft_succ, Nat.log2_two_mul some, ih, Nat.add_assoc]

def digitsOf (m : Nat) : Nat :=
  ((⟨m <<< (52 - m.log2), false, false⟩ : ExtendedMantissa) >>> (m.log2 - 52)).roundedMantissa

def carried (e : Int) (digits : Nat) : Int × Nat :=
  if digits < 2 ^ 53 then (e, digits) else (e + 1, 2 ^ 52)

theorem carried_exponent (e : Int) (digits : Nat) :
    e ≤ (carried e digits).1 ∧ (carried e digits).1 ≤ e + 1 := by
  rw [carried]
  split <;> simp

theorem carried_digits (e : Int) {digits : Nat} (bounds : 2 ^ 52 ≤ digits ∧ digits ≤ 2 ^ 53) :
    2 ^ 52 ≤ (carried e digits).2 ∧ (carried e digits).2 < 2 ^ 53 := by
  rw [carried]
  split
  · exact ⟨bounds.1, by assumption⟩
  · simp

theorem nearest_digitsOf (m : Nat) :
    2 * (m <<< (52 - m.log2)) ≤ (2 * digitsOf m + 1) * 2 ^ (m.log2 - 52) ∧
      2 * digitsOf m * 2 ^ (m.log2 - 52) ≤ 2 * (m <<< (52 - m.log2)) + 2 ^ (m.log2 - 52) :=
  (shifted_shift _ _).nearest

theorem digitsOf_short {m : Nat} (short : m.log2 ≤ 52) : digitsOf m = m <<< (52 - m.log2) := by
  have near := nearest_digitsOf m
  rw [Nat.sub_eq_zero_of_le short] at near
  omega

theorem shiftLeft_bounds {m : Nat} (pos : 0 < m) :
    2 ^ 52 * 2 ^ (m.log2 - 52) ≤ m <<< (52 - m.log2) ∧ m <<< (52 - m.log2) < 2 ^ 53 * 2 ^ (m.log2 - 52) := by
  have digits := (Nat.log2_eq_iff (Nat.ne_of_gt (shiftLeft_pos pos (52 - m.log2)))).mp rfl
  have length : m.log2 + (52 - m.log2) = 52 + (m.log2 - 52) := by omega
  rw [log2_shiftLeft pos, length, Nat.pow_succ, Nat.pow_add] at digits
  omega

theorem digitsOf_bounds {m : Nat} (pos : 0 < m) : 2 ^ 52 ≤ digitsOf m ∧ digitsOf m ≤ 2 ^ 53 := by
  obtain ⟨low, high⟩ := shiftLeft_bounds pos
  obtain ⟨above, below⟩ := nearest_digitsOf m
  have unit := Nat.two_pow_pos (m.log2 - 52)
  generalize 2 ^ (m.log2 - 52) = unit at *
  constructor
  · by_contra less
    nlinarith
  · by_contra more
    nlinarith

theorem shift_eq {m k : Nat} {e : Int}
    (target : Format.binary64.targetExponent (totalExponent m e) = e + k) :
    shiftToTargetExponent .binary64 m e .exact = ((⟨m, false, false⟩ : ExtendedMantissa) >>> k, e + k) := by
  have amount : (e + k - e).toNat = k := by omega
  simp only [shiftToTargetExponent, shiftToExponent, target, amount]
  rfl

theorem shift_rounded {digits : Nat} {e : Int} (long : 2 ^ 52 ≤ digits) (short : digits ≤ 2 ^ 53)
    (low : -1074 ≤ e) :
    shiftToTargetExponent .binary64 digits e .exact =
      (⟨(carried e digits).2, false, false⟩, (carried e digits).1) := by
  have pos : digits ≠ 0 := by omega
  by_cases less : digits < 2 ^ 53
  · have length : digits.log2 = 52 := (Nat.log2_eq_iff pos).mpr ⟨long, less⟩
    have target : Format.binary64.targetExponent (totalExponent digits e) = e + (0 : Nat) := by
      rw [targetExponent_eq, totalExponent_eq, length]
      omega
    rw [shift_eq target, carried, if_pos less]
    simp only [Nat.cast_zero, add_zero]
    rfl
  · obtain rfl : digits = 2 ^ 53 := by omega
    have target : Format.binary64.targetExponent (totalExponent (2 ^ 53) e) = e + (1 : Nat) := by
      rw [targetExponent_eq, totalExponent_eq, Nat.log2_two_pow]
      omega
    rw [shift_eq target]
    rfl

theorem round_eq (sign : Sign) {m : Nat} {e : Int} (pos : 0 < m) (low : -1022 ≤ m.log2 + e) :
    ∃ some : 0 < (carried (m.log2 + e - 52) (digitsOf m)).2,
      UnpackedFloat.round .binary64 sign m e = .finite sign
        (carried (m.log2 + e - 52) (digitsOf m)).2 (carried (m.log2 + e - 52) (digitsOf m)).1 some := by
  obtain ⟨long, short⟩ := digitsOf_bounds pos
  have some : 0 < (carried (m.log2 + e - 52) (digitsOf m)).2 := by
    rw [carried]
    split
    · exact Nat.lt_of_lt_of_le (by decide) long
    · exact Nat.two_pow_pos 52
  refine ⟨some, ?_⟩
  have target : Format.binary64.targetExponent (totalExponent m e) = m.log2 + e - 52 := by
    rw [targetExponent_eq, totalExponent_eq]
    omega
  have widened : decreaseExponent m e (m.log2 + e - 52) =
      (m <<< (52 - m.log2), e - (52 - m.log2 : Nat)) := by
    have amount : (e - (m.log2 + e - 52)).toNat = 52 - m.log2 := by omega
    simp only [decreaseExponent, amount]
  have target' : Format.binary64.targetExponent
      (totalExponent (m <<< (52 - m.log2)) (e - (52 - m.log2 : Nat))) =
        e - (52 - m.log2 : Nat) + (m.log2 - 52 : Nat) := by
    rw [targetExponent_eq, totalExponent_eq, log2_shiftLeft pos]
    omega
  have exponent : e - (52 - m.log2 : Nat) + (m.log2 - 52 : Nat) = m.log2 + e - 52 := by omega
  have carry := shift_rounded long short (by omega : -1074 ≤ m.log2 + e - 52)
  have digits : ((⟨m <<< (52 - m.log2), false, false⟩ : ExtendedMantissa) >>>
      (m.log2 - 52)).roundedMantissa = digitsOf m := rfl
  simp only [UnpackedFloat.round, target, widened, roundWithAccuracy, shift_eq target', exponent, digits,
    carry]
  rw [dif_neg (Nat.ne_of_gt some)]

end PredicateLang.Double
