import Mathlib.Data.Int.Bitwise
import PredicateLang.Proofs.Machine.Effects

set_option autoImplicit false

namespace PredicateLang

theorem testBit_ofInt {width i : Nat} (a : Int) (low : i < width) :
    (BitVec.ofInt width a)[i] = a.testBit i := by
  have natural (n : Nat) : (BitVec.ofNat width n)[i] = n.testBit i := by
    rw [← BitVec.getLsbD_eq_getElem, BitVec.getLsbD_ofNat, decide_eq_true low, Bool.true_and]
  cases a with
  | ofNat n =>
      rw [Int.ofNat_eq_natCast, BitVec.ofInt_natCast]
      exact natural n
  | negSucc n =>
      rw [BitVec.ofInt_negSucc_eq_not_ofNat, BitVec.getElem_not, natural]
      rfl

theorem ofInt_land (width : Nat) (a b : Int) :
    BitVec.ofInt width (a.land b) = BitVec.ofInt width a &&& BitVec.ofInt width b :=
  BitVec.eq_of_getElem_eq fun i low => by
    rw [BitVec.getElem_and, testBit_ofInt, testBit_ofInt, testBit_ofInt, Int.testBit_land]

theorem ofInt_lor (width : Nat) (a b : Int) :
    BitVec.ofInt width (a.lor b) = BitVec.ofInt width a ||| BitVec.ofInt width b :=
  BitVec.eq_of_getElem_eq fun i low => by
    rw [BitVec.getElem_or, testBit_ofInt, testBit_ofInt, testBit_ofInt, Int.testBit_lor]

namespace IntOperation

/-- An operation on whole numbers. Quotients are cut towards zero and remainders have the sign of the
dividend; numbers below zero have no end of leading ones. -/
def exact : IntOperation → Int → Int → Int
  | .add, a, b => a + b
  | .sub, a, b => a - b
  | .mul, a, b => a * b
  | .div, a, b => a.tdiv b
  | .mod, a, b => a.tmod b
  | .and, a, b => a.land b
  | .or, a, b => a.lor b

theorem toInt_apply (operation : IntOperation) (i j : Int64) :
    (operation.apply i j).toInt = (operation.exact i.toInt j.toInt).bmod (2 ^ 64) := by
  cases operation with
  | add => exact Int64.toInt_add i j
  | sub => exact Int64.toInt_sub i j
  | mul => exact Int64.toInt_mul i j
  | div => exact Int64.toInt_div i j
  | mod =>
      -- A remainder fits as it is.
      rw [exact, ← Int64.toInt_mod]
      exact (Int64.toInt_bmod_size _).symm
  | and =>
      rw [exact, ← BitVec.toInt_ofInt, ofInt_land, ← Int64.toInt_toBitVec]
      simp [apply]
  | or =>
      rw [exact, ← BitVec.toInt_ofInt, ofInt_lor, ← Int64.toInt_toBitVec]
      simp [apply]

theorem apply_eq_ofInt (operation : IntOperation) (i j : Int64) :
    operation.apply i j = .ofInt (operation.exact i.toInt j.toInt) := by
  rw [← Int64.toInt_inj, toInt_apply, Int64.toInt_ofInt]
  rfl

theorem div_mul_add_mod (i j : Int64) : i / j * j + i % j = i := by
  rw [← Int64.toInt_inj, Int64.toInt_add, Int64.toInt_mul, Int64.toInt_div, Int64.toInt_mod,
    Int.bmod_mul_bmod, Int.bmod_add_bmod, Int.add_comm, Int.tmod_add_tdiv_mul]
  exact Int64.toInt_bmod_size i

end IntOperation

namespace Value

/-- The whole number that a value is for an operation on integers. -/
inductive Denotes : Value → Int → Prop
  | int (i : Int64) : Denotes (.int i) i.toInt
  | bool (b : Bool) : Denotes (.bool b) (if b then 1 else 0)

theorem Denotes.asInt? {v : Value} {a : Int} (denotes : v.Denotes a) :
    ∃ i : Int64, v.asInt? = some i ∧ i.toInt = a := by
  cases denotes with
  | int i => exact ⟨i, rfl, rfl⟩
  | bool b => exact ⟨intOfBool b, rfl, by cases b <;> rfl⟩

theorem asInt?_of_kind {v : Value} (other : v.kind ∉ [.int, .bool]) : v.asInt? = none := by
  cases v with
  | int i | bool b => exact absurd other (by simp [kind])
  | _ => rfl

theorem exists_denotes {v : Value} (integral : v.kind ∈ [.int, .bool]) : ∃ a, v.Denotes a := by
  cases v with
  | int i => exact ⟨_, .int i⟩
  | bool b => exact ⟨_, .bool b⟩
  | _ => simp [kind] at integral

end Value

namespace IntOperation

/-- Every machine that has room for a result goes on with this one, or stops with this cause. -/
def Results (operation : IntOperation) (left right : Value) (outcome : Except RuntimeCause Value) : Prop :=
  ∀ ⦃ω : Type⦄ (m : Machine ω) (pc : Nat) (code : List UInt32) (stack : Stack) (world : ω),
    stack.length < m.limit →
      m.step ⟨pc, (Opcode.int operation).word :: code, right :: left :: stack, world⟩ =
        match outcome with
        | .ok v => .moved ⟨pc + 1, code, v :: stack, world⟩
        | .error cause => .stopped (.error ⟨pc, cause⟩) world

variable {operation : IntOperation} {left right : Value} {a b : Int}

theorem results_intResult (operation : IntOperation) (left right : Value) :
    operation.Results left right (intResult operation left right) := by
  intro ω m pc code stack world room
  have known : Opcode.ofWord? (Opcode.int operation).word = some (.int operation) :=
    Opcode.ofWord?_word _
  have fetched := Machine.fetch_plain known rfl m.constants code
  have performed : m.perform ⟨.int operation, none, []⟩ (right :: left :: stack) world =
      (Made.settle m.limit ((intResult operation left right).map fun v => (some v, stack)), world) := by
    rw [Made.settle_result]
    rfl
  rw [m.step_fetched fetched performed, Machine.settle]
  cases intResult operation left right with
  | error cause => rfl
  | ok v =>
      have pushed : Stack.push m.limit v stack = .ok (v :: stack) := Machine.push_eq_ok.mpr ⟨room, rfl⟩
      simp only [Except.map, Made.settle, pushed]
      rfl

theorem intResult_of_asInt? {i j : Int64} (held : left.asInt? = some i) (held' : right.asInt? = some j) :
    intResult operation left right =
      if operation ∈ [.div, .mod] ∧ j = 0 then .error (.divisionByZero (.int operation))
      else .ok (.int (operation.apply i j)) := by
  have zero : (operation.divides && j == 0) = true ↔ operation ∈ [.div, .mod] ∧ j = 0 := by
    cases operation <;> simp [divides]
  rw [← if_congr zero rfl rfl]
  simp only [intResult, intOperand, held, held']
  rfl

theorem intResult_of_denotes (one : left.Denotes a) (other : right.Denotes b) :
    intResult operation left right =
      if operation ∈ [.div, .mod] ∧ b = 0 then .error (.divisionByZero (.int operation))
      else .ok (.int (.ofInt (operation.exact a b))) := by
  obtain ⟨i, held, rfl⟩ := one.asInt?
  obtain ⟨j, held', rfl⟩ := other.asInt?
  have zero : j = 0 ↔ j.toInt = 0 := (@Int64.toInt_inj j 0).symm
  rw [intResult_of_asInt? held held', apply_eq_ofInt]
  exact if_congr (and_congr_right fun _ => zero) rfl rfl

theorem results_apply {i j : Int64} (held : left.asInt? = some i) (held' : right.asInt? = some j)
    (divisor : operation ∈ [.div, .mod] → j ≠ 0) :
    operation.Results left right (.ok (.int (operation.apply i j))) := by
  have sound : ¬ (operation ∈ [.div, .mod] ∧ j = 0) := fun ⟨divides, zero⟩ => divisor divides zero
  have result : intResult operation left right = .ok (.int (operation.apply i j)) := by
    rw [intResult_of_asInt? held held', if_neg sound]
  exact result ▸ results_intResult operation left right

theorem intResult_of_left (other : left.kind ∉ [.int, .bool]) :
    intResult operation left right = .error (.typeMismatch (.int operation) left.kind) := by
  simp only [intResult, intOperand, Value.asInt?_of_kind other]
  rfl

theorem intResult_of_right (integral : left.kind ∈ [.int, .bool]) (other : right.kind ∉ [.int, .bool]) :
    intResult operation left right = .error (.typeMismatch (.int operation) right.kind) := by
  obtain ⟨a, denotes⟩ := Value.exists_denotes integral
  obtain ⟨i, held, -⟩ := denotes.asInt?
  simp only [intResult, intOperand, held, Value.asInt?_of_kind other]
  rfl

end IntOperation

open IntOperation in
/-- Integers and truth values have the exact result modulo 2 ^ 64 in every operation but a division by
zero, and a quotient and its remainder make up the dividend again. Other operands are refused, the left
one before the right one. -/
theorem integers_are_whole_numbers_modulo (left right : Value) :
    (∀ a b, left.Denotes a → right.Denotes b →
      (∀ operation : IntOperation, operation.Results left right
        (if operation ∈ [.div, .mod] ∧ b = 0 then .error (.divisionByZero (.int operation))
        else .ok (.int (.ofInt (operation.exact a b))))) ∧
      (b ≠ 0 → ∃ quotient product remainder i,
        div.Results left right (.ok quotient) ∧ mul.Results quotient right (.ok product) ∧
        mod.Results left right (.ok remainder) ∧ add.Results product remainder (.ok (.int i)) ∧
        i.toInt = a)) ∧
    (left.kind ∉ [.int, .bool] → ∀ operation : IntOperation,
      operation.Results left right (.error (.typeMismatch (.int operation) left.kind))) ∧
    (left.kind ∈ [.int, .bool] → right.kind ∉ [.int, .bool] → ∀ operation : IntOperation,
      operation.Results left right (.error (.typeMismatch (.int operation) right.kind))) := by
  refine ⟨fun a b one other => ⟨fun operation => ?_, fun divisor => ?_⟩, fun other operation => ?_,
    fun integral other operation => ?_⟩
  · rw [← intResult_of_denotes one other]
    exact results_intResult operation left right
  · obtain ⟨i, held, rfl⟩ := one.asInt?
    obtain ⟨j, held', rfl⟩ := other.asInt?
    have some : j ≠ 0 := fun zero => divisor (congrArg Int64.toInt zero)
    have whole : add.Results (.int (i / j * j)) (.int (i % j)) (.ok (.int (i / j * j + i % j))) :=
      results_apply rfl rfl (by simp)
    rw [div_mul_add_mod] at whole
    exact ⟨.int (i / j), .int (i / j * j), .int (i % j), i, results_apply held held' fun _ => some,
      results_apply rfl held' (by simp), results_apply held held' fun _ => some, whole, rfl⟩
  · rw [← intResult_of_left other]
    exact results_intResult operation left right
  · rw [← intResult_of_right integral other]
    exact results_intResult operation left right

theorem least_over_minus_one :
    (IntOperation.div.Results (.int Int64.minValue) (.int (-1)) (.ok (.int Int64.minValue)) ∧
        ∃ quotient product remainder i,
          IntOperation.div.Results (.int Int64.minValue) (.int (-1)) (.ok quotient) ∧
          IntOperation.mul.Results quotient (.int (-1)) (.ok product) ∧
          IntOperation.mod.Results (.int Int64.minValue) (.int (-1)) (.ok remainder) ∧
          IntOperation.add.Results product remainder (.ok (.int i)) ∧ i.toInt = -2 ^ 63) ∧
      IntOperation.mod.Results (.int 5) (.bool false) (.error (.divisionByZero (.int .mod))) ∧
      IntOperation.or.Results (.string "a") (.char 'b') (.error (.typeMismatch (.int .or) .string)) ∧
      IntOperation.div.Results (.bool true) (.string "a") (.error (.typeMismatch (.int .div) .string)) := by
  obtain ⟨both, -, -⟩ := integers_are_whole_numbers_modulo (.int Int64.minValue) (.int (-1))
  obtain ⟨results, again⟩ := both _ _ (.int _) (.int _)
  obtain ⟨by_truth, -, -⟩ := integers_are_whole_numbers_modulo (.int 5) (.bool false)
  obtain ⟨-, left, -⟩ := integers_are_whole_numbers_modulo (.string "a") (.char 'b')
  obtain ⟨-, -, right⟩ := integers_are_whole_numbers_modulo (.bool true) (.string "a")
  exact ⟨⟨results .div, again (by decide)⟩, (by_truth _ _ (.int _) (.bool _)).1 .mod,
    left (by decide) .or, right (by decide) (by decide) .div⟩

end PredicateLang
