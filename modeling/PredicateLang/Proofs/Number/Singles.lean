import PredicateLang.Proofs.Number.Rounding

set_option autoImplicit false

namespace PredicateLang.Double

open Float.Model UnpackedFloat

theorem single_bounds {x : Float32} {sign : Sign} {m : Nat} {e : Int} {pos : 0 < m}
    (h : x.toModel.unpack = .finite sign m e pos) : m < 2 ^ 24 ∧ -149 ≤ e ∧ e ≤ 104 := by
  have bias : Format.binary32.exponentBias = 127 := rfl
  delta Float32.Model.unpack UnpackedFloat.unpack at h
  dsimp only at h
  generalize (unpackExponent x.toModel.toBits.toBitVec : BitVec Format.binary32.exponentBits) =
    exponent at h
  have small : (@unpackMantissa .binary32 x.toModel.toBits.toBitVec).toNat < 2 ^ 23 :=
    BitVec.isLt _
  have size : exponent.toNat < 2 ^ 8 := exponent.isLt
  split at h
  · split at h <;> cases h
  · rename_i inside
    have below : exponent.toNat ≠ 2 ^ 8 - 1 := fun full => inside (BitVec.eq_of_toNat_eq (by
      simpa [BitVec.neg_one_eq_allOnes] using full))
    split at h
    · rename_i least
      split at h
      · cases h
      · cases h
        simp [least]
        omega
    · rename_i normal
      have above : exponent.toNat ≠ 0 := fun zero => normal (BitVec.eq_of_toNat_eq (by simpa using zero))
      cases h
      refine ⟨BitVec.isLt _, ?_, ?_⟩ <;> omega

theorem isFinite_ofSingle {x : Float32} (finite : x.isFinite = true) : (ofSingle x).isFinite = true := by
  replace finite : x.toModel.unpack.isFinite = true := finite
  rw [ofSingle]
  split
  · rename_i sign m e pos found
    obtain ⟨small, low, high⟩ := single_bounds found
    have short : m.log2 < 24 := (Nat.log2_lt (Nat.ne_of_gt pos)).mpr small
    obtain ⟨some, same⟩ := round_eq sign pos (by omega : -1022 ≤ m.log2 + e)
    rw [same]
    obtain ⟨-, above⟩ := carried_exponent (m.log2 + e - 52) (digitsOf m)
    have room : ((carried (m.log2 + e - 52) (digitsOf m)).1 + (1023 : Nat) + (52 : Nat)).toNat + 1 <
        2 ^ 11 := by omega
    exact isFinite_pack some room
  · rename_i other
    cases found : x.toModel.unpack with
    | infinity sign | notANumber => simp [found, UnpackedFloat.isFinite] at finite
    | zero sign => exact isFinite_packComponents _ (zero_inside _)
    | finite sign m e pos => exact absurd found (other sign m e pos)

end PredicateLang.Double
