import PredicateLang.Proofs.Machine.Frames

set_option autoImplicit false

namespace PredicateLang

namespace Value

theorem intOfBool_eq_one {b : Bool} : intOfBool b = 1 ↔ b = true := by
  cases b <;> decide

theorem intOfBool_eq_zero {b : Bool} : intOfBool b = 0 ↔ b = false := by
  cases b <;> decide

theorem intOfBool_not (b : Bool) : intOfBool (!b) = 1 - intOfBool b := by
  cases b <;> decide

end Value

namespace Comparison

def answer (comparison : Comparison) (left right : Value) : Int64 :=
  Value.intOfBool (comparison.holds left right)

/-- Every machine that has room for the answer gives this one. -/
def Answers (comparison : Comparison) (left right : Value) (answer : Int64) : Prop :=
  ∀ {ω : Type} (m : Machine ω) (pc : Nat) (code : List UInt32) (stack : Stack) (world : ω),
    stack.length < m.limit →
      m.step ⟨pc, (Opcode.compare comparison).word :: code, right :: left :: stack, world⟩ =
        .moved ⟨pc + 1, code, .int answer :: stack, world⟩

theorem answers_answer (comparison : Comparison) (left right : Value) :
    comparison.Answers left right (comparison.answer left right) := by
  intro ω m pc code stack world room
  have known : Opcode.ofWord? (Opcode.compare comparison).word = some (.compare comparison) :=
    Opcode.ofWord?_word _
  have fetched := Machine.fetch_plain known rfl m.constants code
  have pushed : Stack.push m.limit (compareResult comparison left right) stack =
      .ok (.int (comparison.answer left right) :: stack) :=
    Machine.push_eq_ok.mpr ⟨room, rfl⟩
  have performed : m.perform ⟨.compare comparison, none, code⟩ (right :: left :: stack) world =
      (.ok (.int (comparison.answer left right) :: stack), world) :=
    congrArg (·, world) pushed
  simp only [Machine.step, fetched, performed]
  rfl

@[simp] theorem answer_eq_one {comparison : Comparison} {left right : Value} :
    comparison.answer left right = 1 ↔ comparison.holds left right = true :=
  Value.intOfBool_eq_one

@[simp] theorem answer_eq_zero {comparison : Comparison} {left right : Value} :
    comparison.answer left right = 0 ↔ comparison.holds left right = false :=
  Value.intOfBool_eq_zero

theorem answer_eq_ite {comparison : Comparison} {left right : Value} {p : Prop} [Decidable p]
    (decides : comparison.holds left right = true ↔ p) :
    comparison.answer left right = if p then 1 else 0 := by
  rw [answer, Value.intOfBool]
  exact if_congr decides rfl rfl

theorem answer_complement {comparison other : Comparison} {left right left' right' : Value}
    (opposite : comparison.holds left right = !other.holds left' right') :
    comparison.answer left right = 1 - other.answer left' right' := by
  rw [answer, opposite, Value.intOfBool_not, answer]

end Comparison

end PredicateLang
