import PredicateLang.Proofs.Number.Order
import PredicateLang.Proofs.Number.Rounding

set_option autoImplicit false

namespace PredicateLang.Double

open Float.Model UnpackedFloat

theorem log2_mono {m n : Nat} (pos : 0 < m) (least : m ≤ n) : m.log2 ≤ n.log2 :=
  (Nat.le_log2 (by omega)).mpr (Nat.le_trans (Nat.log2_self_le (Nat.ne_of_gt pos)) least)

theorem digitsOf_mono {m n : Nat} (least : m ≤ n) (length : m.log2 = n.log2) :
    digitsOf m ≤ digitsOf n := by
  rcases Nat.eq_or_lt_of_le least with rfl | less
  · exact Nat.le_refl _
  · have shifted : m <<< (52 - n.log2) < n <<< (52 - n.log2) := by
      rw [Nat.shiftLeft_eq, Nat.shiftLeft_eq]
      exact Nat.mul_lt_mul_of_pos_right less (Nat.two_pow_pos _)
    have near := (nearest_digitsOf m).2
    have near' := (nearest_digitsOf n).1
    rw [length] at near
    generalize 2 ^ (n.log2 - 52) = unit at near near'
    by_contra above
    have step : (2 * digitsOf n + 2) * unit ≤ 2 * digitsOf m * unit :=
      Nat.mul_le_mul_right _ (by omega)
    linarith

theorem digitsOf_strict {m n : Nat} (less : m < n) (length : m.log2 = n.log2) (short : n.log2 ≤ 52) :
    digitsOf m < digitsOf n := by
  rw [digitsOf_short short, digitsOf_short (length ▸ short), length, Nat.shiftLeft_eq, Nat.shiftLeft_eq]
  exact Nat.mul_lt_mul_of_pos_right less (Nat.two_pow_pos _)

theorem digitsOf_lt {m : Nat} (pos : 0 < m) (short : m.log2 ≤ 52) : digitsOf m < 2 ^ 53 := by
  have bound := (shiftLeft_bounds pos).2
  rwa [← digitsOf_short short, Nat.sub_eq_zero_of_le short, Nat.pow_zero, Nat.mul_one] at bound

section

variable {e f : Int} {digits others : Nat}

theorem carried_mono (least : digits ≤ others) :
    toLex (carried e digits) ≤ toLex (carried e others) := by
  rw [Prod.Lex.toLex_le_toLex, carried, carried]
  split_ifs <;> simp <;> omega

theorem carried_strict (less : digits < others) (short : digits < 2 ^ 53) :
    toLex (carried e digits) < toLex (carried e others) := by
  rw [Prod.Lex.toLex_lt_toLex, carried, carried, if_pos short]
  split_ifs
  · simpa using less
  · simp

theorem carried_le_of_lt (less : e < f) (long : 2 ^ 52 ≤ others) :
    toLex (carried e digits) ≤ toLex (carried f others) := by
  rw [Prod.Lex.toLex_le_toLex, carried, carried]
  split_ifs <;> simp <;> omega

theorem carried_lt_of_lt (less : e < f) (short : digits < 2 ^ 53) :
    toLex (carried e digits) < toLex (carried f others) := by
  rw [Prod.Lex.toLex_lt_toLex, carried, carried, if_pos short]
  split_ifs <;> simp <;> omega

end

def place (n : Nat) : ℤ ×ₗ ℕ := toLex (carried (n.log2 - 52) (digitsOf n))

theorem place_mono {m n : Nat} (pos : 0 < m) (least : m ≤ n) : place m ≤ place n := by
  rcases Nat.eq_or_lt_of_le (log2_mono pos least) with length | length
  · rw [place, place, length]
    exact carried_mono (digitsOf_mono least length)
  · exact carried_le_of_lt (by omega) (digitsOf_bounds (by omega)).1

theorem place_strict {m n : Nat} (pos : 0 < m) (less : m < n) (exact : n ≤ 2 ^ 53) :
    place m < place n := by
  have short : m.log2 ≤ 52 := Nat.lt_succ_iff.mp ((Nat.log2_lt (Nat.ne_of_gt pos)).mpr (by omega))
  rcases Nat.eq_or_lt_of_le (log2_mono pos (Nat.le_of_lt less)) with length | length
  · rw [place, place, length]
    exact carried_strict (digitsOf_strict less length (length ▸ short)) (digitsOf_lt pos short)
  · exact carried_lt_of_lt (by omega) (digitsOf_lt pos short)

def Rank.finite (sign : Sign) (place : ℤ ×ₗ ℕ) : Rank :=
  .signed sign 1 (ofLex place).1 (ofLex place).2

theorem Rank.finite_positive : StrictMono (Rank.finite .positive) := by
  rintro ⟨e, m⟩ ⟨f, n⟩ less
  rcases Prod.Lex.toLex_lt_toLex.mp less with exponent | ⟨rfl, digits⟩
  · exact Prod.Lex.toLex_lt_toLex.mpr (.inr ⟨rfl, Prod.Lex.toLex_lt_toLex.mpr (.inl exponent)⟩)
  · refine Prod.Lex.toLex_lt_toLex.mpr (.inr ⟨rfl, Prod.Lex.toLex_lt_toLex.mpr (.inr ⟨rfl, ?_⟩)⟩)
    exact Int.ofNat_lt.mpr digits

theorem Rank.finite_negative : StrictAnti (Rank.finite .negative) := by
  rintro ⟨e, m⟩ ⟨f, n⟩ less
  rcases Prod.Lex.toLex_lt_toLex.mp less with exponent | ⟨rfl, digits⟩
  · refine Prod.Lex.toLex_lt_toLex.mpr (.inr ⟨rfl, Prod.Lex.toLex_lt_toLex.mpr (.inl ?_)⟩)
    exact Int.neg_lt_neg exponent
  · refine Prod.Lex.toLex_lt_toLex.mpr (.inr ⟨rfl, Prod.Lex.toLex_lt_toLex.mpr (.inr ⟨rfl, ?_⟩)⟩)
    exact Int.neg_lt_neg (Int.ofNat_lt.mpr digits)

def rankOfInt : ℤ → Rank
  | .ofNat 0 => .signed .positive 0 0 0
  | .ofNat (n + 1) => .finite .positive (place (n + 1))
  | .negSucc n => .finite .negative (place (n + 1))

theorem negative_lt_zero (p : ℤ ×ₗ ℕ) : Rank.finite .negative p < rankOfInt 0 :=
  Prod.Lex.toLex_lt_toLex.mpr (.inl (by change (-1 : ℤ) < 0; decide))

theorem zero_lt_positive (p : ℤ ×ₗ ℕ) : rankOfInt 0 < Rank.finite .positive p :=
  Prod.Lex.toLex_lt_toLex.mpr (.inl (by change (0 : ℤ) < 1; decide))

theorem rankOfInt_le_succ (i : ℤ) : rankOfInt i ≤ rankOfInt (i + 1) := by
  cases i with
  | negSucc n =>
      cases n with
      | zero => exact le_of_lt (negative_lt_zero _)
      | succ n => exact Rank.finite_negative.antitone (place_mono (Nat.succ_pos n) (Nat.le_succ _))
  | ofNat n =>
      cases n with
      | zero => exact le_of_lt (zero_lt_positive _)
      | succ n => exact Rank.finite_positive.monotone (place_mono (Nat.succ_pos n) (Nat.le_succ _))

theorem rankOfInt_lt_succ (i : ℤ) (low : -2 ^ 53 ≤ i) (high : i + 1 ≤ 2 ^ 53) :
    rankOfInt i < rankOfInt (i + 1) := by
  cases i with
  | negSucc n =>
      cases n with
      | zero => exact negative_lt_zero _
      | succ n =>
          have less := place_strict (Nat.succ_pos n) (Nat.lt_succ_self _) (by omega)
          exact Rank.finite_negative less
  | ofNat n =>
      cases n with
      | zero => exact zero_lt_positive _
      | succ n =>
          have less := place_strict (Nat.succ_pos n) (Nat.lt_succ_self _) (Int.ofNat_le.mp high)
          exact Rank.finite_positive less

theorem rankOfInt_monotone : Monotone rankOfInt :=
  monotone_int_of_le_succ rankOfInt_le_succ

theorem rankOfInt_strictMonoOn : StrictMonoOn rankOfInt (Set.Icc (-2 ^ 53) (2 ^ 53)) :=
  strictMonoOn_of_lt_add_one Set.ordConnected_Icc fun _ _ inside next =>
    rankOfInt_lt_succ _ inside.1 next.2

theorem rank?_round (sign : Sign) {m : Nat} (pos : 0 < m) (small : m < 2 ^ 64) :
    rank? (Float.ofModel (pack (UnpackedFloat.round .binary64 sign m 0))) =
      some (.finite sign (place m)) := by
  have length : m.log2 < 64 := (Nat.log2_lt (Nat.ne_of_gt pos)).mpr small
  obtain ⟨some, rounded⟩ := round_eq (e := 0) sign pos (by omega)
  obtain ⟨low, high⟩ := carried_exponent (m.log2 + 0 - 52) (digitsOf m)
  obtain ⟨long, short⟩ := carried_digits (m.log2 + 0 - 52) (digitsOf_bounds pos)
  have placed : place m = toLex (carried (m.log2 + 0 - 52) (digitsOf m)) := by rw [place, add_zero]
  rw [rounded, placed]
  change rankOf? (UnpackedFloat.unpack .binary64 (UnpackedFloat.pack .binary64 _)) = _
  rw [unpack_pack some long short (by omega) (by omega)]
  rfl

theorem rank?_ofInt {n : ℤ} (small : n.natAbs < 2 ^ 64) : rank? (ofInt n) = some (rankOfInt n) := by
  cases n with
  | negSucc n =>
      have rounded : UnpackedFloat.ofInt .binary64 (.negSucc n) =
          UnpackedFloat.round .binary64 .negative (n + 1) 0 := by
        have below : compare (Int.negSucc n) 0 = .lt := compare_lt_iff_lt.mpr (Int.negSucc_lt_zero n)
        simp only [UnpackedFloat.ofInt, UnpackedFloat.normalize, below]
        rfl
      rw [ofInt, rounded]
      exact rank?_round .negative (Nat.succ_pos n) small
  | ofNat n =>
      cases n with
      | zero => rfl
      | succ n =>
          have rounded : UnpackedFloat.ofInt .binary64 (.ofNat (n + 1)) =
              UnpackedFloat.round .binary64 .positive (n + 1) 0 := by
            have above : compare (Int.ofNat (n + 1)) 0 = .gt := rfl
            simp only [UnpackedFloat.ofInt, UnpackedFloat.normalize, above]
            rfl
          rw [ofInt, rounded]
          exact rank?_round .positive (Nat.succ_pos n) small

theorem rank?_ofInt64 (i : Int64) : rank? (ofInt64 i) = some (rankOfInt i.toInt) := by
  have low := i.le_toInt
  have high := i.toInt_lt
  exact rank?_ofInt (by omega)

theorem rank?_ofUInt64 (n : UInt64) : rank? (ofUInt64 n) = some (rankOfInt n.toNat) :=
  rank?_ofInt n.toNat_lt

end PredicateLang.Double
