import PredicateLang.Proofs.Machine.Frames

set_option autoImplicit false

namespace PredicateLang

namespace Opcode

def needs : Opcode → Nat
  | .getAttr | .convert _ => 1
  | .int _ | .double _ | .compare _ => 2
  | _ => 0

def leaves : Opcode → Nat → Nat
  | .getStatic, n | .load _, n => n + 1
  | .int _, n | .double _, n | .compare _, n | .concat, n => max 1 (n - 1)
  | _, n => n

def divides : Opcode → Bool
  | .int operation => operation.divides
  | .double operation => operation.divides
  | _ => false

theorem leaves_combines {op : Opcode} (combines : op.combines = true) (n : Nat) :
    op.leaves n = max 1 (n - 1) ∧ op.needs ≤ 2 := by
  cases op with
  | int | double | concat | compare => exact ⟨rfl, by simp [needs]⟩
  | _ => cases combines

end Opcode

abbrev Made := Except RuntimeCause (Option Value × Stack)

def Made.settle (limit : Nat) (made : Made) : Except RuntimeCause Stack :=
  match made with
  | .error cause => .error cause
  | .ok (none, rest) => .ok rest
  | .ok (some v, rest) => Stack.push limit v rest

inductive Fails {ω : Type} (bindings : Bindings ω) (op : Opcode) (constant : Option Value)
    (stack : Stack) : RuntimeCause → Prop
  | underflow (short : stack.length < op.needs) : Fails bindings op constant stack (.stackUnderflow op)
  | mismatch (found : ValueKind) : Fails bindings op constant stack (.typeMismatch op found)
  | division (divides : op.divides = true) : Fails bindings op constant stack (.divisionByZero op)
  | unimplemented (reserved : op = .invoke) :
      Fails bindings op constant stack (.unimplementedOpcode op)
  | missing (followed : op.hasOperand = true) (absent : constant = none) :
      Fails bindings op constant stack (.constantOutOfRange none)
  | lacking {name : String} {owner : UInt32} (named : constant = some (.attrRef name owner)) :
      Fails bindings op constant stack (.attributeNotFound name)
  | index {name : String} {owner : UInt32} {place size : Nat}
      (named : constant = some (.attrRef name owner)) (read : Count.read? name = some place) :
      Fails bindings op constant stack (.indexOutOfRange place size)
  | unresolved {name : String} {scope : Scope} (named : constant = some (.dataRef name scope))
      (absent : scope = .static → bindings.find? name = none) :
      Fails bindings op constant stack (.unresolvedBinding name)
  | unsupported {name : String} (named : constant = some (.dataRef name .static))
      (fault : BridgeFault) : Fails bindings op constant stack (.unsupportedHostType name fault)

structure Effect {ω : Type} (bindings : Bindings ω) (op : Opcode) (constant : Option Value)
    (stack : Stack) (made : Made) : Prop where
  low : ∀ v rest, made = .ok (v, rest) → rest.length ≤ stack.length
  height : ∀ v rest, made = .ok (v, rest) →
    rest.length + v.toList.length = op.leaves stack.length
  fails : ∀ cause, made = .error cause → Fails bindings op constant stack cause

namespace Effect

variable {ω : Type} {bindings : Bindings ω} {op : Opcode} {constant : Option Value} {stack : Stack}

theorem error {cause : RuntimeCause} (fails : Fails bindings op constant stack cause) :
    Effect bindings op constant stack (.error cause) where
  low v rest same := by cases same
  height v rest same := by cases same
  fails other same := by
    cases same
    exact fails

theorem ok {v : Option Value} {rest : Stack} (low : rest.length ≤ stack.length)
    (height : rest.length + v.toList.length = op.leaves stack.length) :
    Effect bindings op constant stack (.ok (v, rest)) where
  low w other same := by
    cases same
    exact low
  height w other same := by
    cases same
    exact height
  fails cause same := by cases same

theorem of_result {result : Except RuntimeCause Value} {rest : Stack}
    (low : rest.length ≤ stack.length) (height : rest.length + 1 = op.leaves stack.length)
    (fails : ∀ cause, result = .error cause → Fails bindings op constant stack cause) :
    Effect bindings op constant stack (result.map fun v => (some v, rest)) := by
  cases result with
  | error cause => exact .error (fails cause rfl)
  | ok v => exact .ok low height

end Effect

theorem Made.settle_result (limit : Nat) (result : Except RuntimeCause Value) (rest : Stack) :
    Made.settle limit (result.map fun v => (some v, rest)) =
      (do Stack.push limit (← result) rest) := by
  cases result <;> rfl

section

variable {ω : Type} {bindings : Bindings ω} {op : Opcode} {constant : Option Value} {stack : Stack}
  {cause : RuntimeCause}

theorem error_of_bind {α β : Type} {x : Except RuntimeCause α} {f : α → Except RuntimeCause β}
    (failed : x >>= f = .error cause) :
    x = .error cause ∨ ∃ a, x = .ok a ∧ f a = .error cause := by
  cases x with
  | error other =>
      cases failed
      exact .inl rfl
  | ok a => exact .inr ⟨a, rfl, failed⟩

theorem intOperand_error {v : Value} (failed : intOperand op v = .error cause) :
    Fails bindings op constant stack cause := by
  unfold intOperand at failed
  split at failed <;> cases failed
  exact .mismatch _

theorem doubleOperand_error {v : Value} (failed : doubleOperand op v = .error cause) :
    Fails bindings op constant stack cause := by
  unfold doubleOperand at failed
  split at failed <;> cases failed
  exact .mismatch _

theorem error_of_operands {α : Type} {operand : Value → Except RuntimeCause α}
    {combine : α → α → Except RuntimeCause Value} {v w : Value}
    (failed : (do combine (← operand v) (← operand w)) = .error cause)
    (mismatch : ∀ u, operand u = .error cause → Fails bindings op constant stack cause)
    (divided : ∀ a b, combine a b = .error cause → Fails bindings op constant stack cause) :
    Fails bindings op constant stack cause := by
  rcases error_of_bind failed with left | ⟨a, -, failed⟩
  · exact mismatch v left
  · rcases error_of_bind failed with right | ⟨b, -, failed⟩
    · exact mismatch w right
    · exact divided a b failed

theorem fails_int {operation : IntOperation} {v w : Value}
    (failed : intResult operation v w = .error cause) :
    Fails bindings (.int operation) constant stack cause := by
  refine error_of_operands failed (fun _ => intOperand_error) fun i j divided => ?_
  split at divided
  · rename_i zero
    cases divided
    exact .division (Bool.and_eq_true_iff.mp zero).1
  · cases divided

theorem fails_double {operation : DoubleOperation} {v w : Value}
    (failed : doubleResult operation v w = .error cause) :
    Fails bindings (.double operation) constant stack cause := by
  refine error_of_operands failed (fun _ => doubleOperand_error) fun x y divided => ?_
  split at divided
  · rename_i zero
    cases divided
    exact .division (Bool.and_eq_true_iff.mp zero).1
  · cases divided

theorem fails_concat {v w : Value} (failed : concatResult v w = .error cause) :
    Fails bindings .concat constant stack cause := by
  unfold concatResult at failed
  split at failed <;> cases failed <;> exact .mismatch _

theorem fails_attribute {v : Value} {name : String} {owner : UInt32}
    (failed : attribute? v name = .error cause) :
    Fails bindings .getAttr (some (.attrRef name owner)) stack cause := by
  unfold attribute? at failed
  split at failed
  · split at failed
    · cases failed
      exact .lacking rfl
    · split at failed <;> cases failed
      exact .index rfl ‹_›
  · split at failed <;> cases failed
    exact .lacking rfl
  · cases failed
    exact .mismatch _

end

section

variable {ω : Type} {bindings : Bindings ω} {op : Opcode} {constant : Option Value}

def Opcode.Acts (op : Opcode) (bindings : Bindings ω) (constant : Option Value) (stack : Stack)
    (performed : Nat → Except RuntimeCause Stack) : Prop :=
  ∃ made, Effect bindings op constant stack made ∧ ∀ limit, performed limit = made.settle limit

theorem Opcode.acts_error {stack : Stack} {cause : RuntimeCause}
    (fails : Fails bindings op constant stack cause) :
    op.Acts bindings constant stack fun _ => .error cause :=
  ⟨.error cause, .error fails, fun _ => rfl⟩

theorem Opcode.acts_unary {f : Value → Except RuntimeCause Value} (one : op.needs = 1)
    (leaves : ∀ n, op.leaves n = n) (stack : Stack)
    (fails : ∀ v cause, f v = .error cause → Fails bindings op constant stack cause) :
    op.Acts bindings constant stack (fun limit => do
      let (v, rest) ← stack.pop op
      Stack.push limit (← f v) rest) := by
  cases stack with
  | nil => exact acts_error (.underflow (by simp [one]))
  | cons v rest =>
      exact ⟨_, .of_result (by simp) (leaves _).symm (fails v), fun limit =>
        (Made.settle_result limit (f v) rest).symm⟩

theorem Opcode.acts_binary {f : Value → Value → Except RuntimeCause Value} (two : op.needs = 2)
    (leaves : ∀ n, op.leaves n = max 1 (n - 1)) (stack : Stack)
    (fails : ∀ v w cause, f v w = .error cause → Fails bindings op constant stack cause) :
    op.Acts bindings constant stack (fun limit => do
      let (v, w, rest) ← stack.popTwo op
      Stack.push limit (← f v w) rest) := by
  rcases stack with _ | ⟨w, _ | ⟨v, rest⟩⟩
  · exact acts_error (.underflow (by simp [two]))
  · exact acts_error (.underflow (by simp [two]))
  · exact ⟨_, .of_result (by simp; omega) (by simp [leaves]) (fails v w), fun limit =>
      (Made.settle_result limit (f v w) rest).symm⟩

theorem Opcode.acts_load (kind : LoadKind) (constant : Value) (stack : Stack) :
    (load kind).Acts bindings (some constant) stack (loadOf kind constant · stack) := by
  cases suits : kind.accepts constant.kind with
  | false =>
      exact ⟨.error (.typeMismatch (.load kind) constant.kind), .error (.mismatch _),
        fun limit => by simp [loadOf, suits, Made.settle]⟩
  | true =>
      exact ⟨.ok (some constant, stack), .ok (Nat.le_refl _) rfl,
        fun limit => by simp [loadOf, suits, Made.settle]⟩

theorem Opcode.acts_perform (other : op ≠ .getStatic) (constant : Option Value) (stack : Stack) :
    op.Acts bindings constant stack (op.perform constant · stack) := by
  cases op with
  | getStatic => exact absurd rfl other
  | nop => exact ⟨.ok (none, stack), .ok (Nat.le_refl _) rfl, fun limit => rfl⟩
  | invoke => exact acts_error (.unimplemented rfl)
  | load kind =>
      cases constant with
      | none => exact acts_error (.missing rfl rfl)
      | some constant => exact acts_load kind constant stack
  | getAttr =>
      cases constant with
      | none => exact acts_error (.missing rfl rfl)
      | some constant =>
          cases constant with
          | attrRef name owner =>
              exact acts_unary (f := fun v => attribute? v name) rfl (fun _ => rfl) stack
                fun v cause => fails_attribute
          | _ => exact acts_error (.mismatch _)
  | int operation =>
      exact acts_binary rfl (fun _ => rfl) stack fun v w cause => fails_int
  | double operation =>
      exact acts_binary rfl (fun _ => rfl) stack fun v w cause => fails_double
  | compare comparison =>
      exact acts_binary (f := fun v w => .ok (compareResult comparison v w)) rfl (fun _ => rfl) stack
        fun v w cause failed => by cases failed
  | convert conversion =>
      let result (v : Value) : Except RuntimeCause Value := do
        return conversion.apply (← intOperand (.convert conversion) v)
      have fails (v : Value) (cause : RuntimeCause) (failed : result v = .error cause) :
          Fails bindings (.convert conversion) constant stack cause := by
        rcases error_of_bind failed with mismatch | ⟨i, -, done⟩
        · exact intOperand_error mismatch
        · cases done
      have acts := acts_unary rfl (fun _ => rfl) stack fails
      simp only [result, bind_assoc, pure_bind] at acts
      exact acts
  | concat =>
      -- Operands that are not there are read as a text, so there is nothing to underflow.
      rcases stack with _ | ⟨w, _ | ⟨v, rest⟩⟩ <;>
        exact ⟨_, .of_result (by simp; try omega) (by simp [leaves]) fun cause => fails_concat,
          fun limit => (Made.settle_result limit (concatResult _ _) _).symm⟩

theorem fetchBinding_made (bindings : Bindings ω) (constant : Value) (stack : Stack) (world : ω) :
    ∃ result after, fetchBinding bindings constant world = (result, after) ∧
      ∀ cause, result = .error cause → Fails bindings .getStatic (some constant) stack cause := by
  cases constant with
  | dataRef name scope =>
      cases scope with
      | static =>
          cases supplied : bindings.find? name with
          | none =>
              refine ⟨.error (.unresolvedBinding name), world, ?_, ?_⟩
              · simp [fetchBinding, Bindings.resolve, supplied]
              · rintro cause ⟨⟩
                exact .unresolved rfl fun _ => supplied
          | some producer =>
              rcases called : producer world with ⟨fault | v, after⟩
              · refine ⟨.error (.unsupportedHostType name fault), after, ?_, ?_⟩
                · simp [fetchBinding, Bindings.resolve, supplied, called]
                · rintro cause ⟨⟩
                  exact .unsupported rfl fault
              · refine ⟨.ok v, after, ?_, fun cause failed => by cases failed⟩
                simp [fetchBinding, Bindings.resolve, supplied, called]
      | _ =>
          refine ⟨_, _, rfl, ?_⟩
          rintro cause ⟨⟩
          exact .unresolved rfl fun static => by cases static
  | _ =>
      refine ⟨_, _, rfl, ?_⟩
      rintro cause ⟨⟩
      exact .mismatch _

theorem Machine.perform_made (bindings : Bindings ω) (op : Opcode) (constant : Option Value)
    (stack : Stack) (world : ω) :
    ∃ made after, Effect bindings op constant stack made ∧ ∀ constants limit,
      (Machine.mk constants bindings limit).perform ⟨op, constant, []⟩ stack world =
        (made.settle limit, after) := by
  by_cases other : op ≠ .getStatic
  · obtain ⟨made, effect, performed⟩ := Opcode.acts_perform other constant stack
    refine ⟨made, world, effect, fun constants limit => ?_⟩
    rw [Machine.perform_of_ne _ other]
    exact congrArg (·, world) (performed limit)
  · obtain rfl : op = .getStatic := by simpa using other
    cases constant with
    | none => exact ⟨.error _, world, .error (.missing rfl rfl), fun constants limit => rfl⟩
    | some constant =>
        obtain ⟨result, after, fetched, fails⟩ := fetchBinding_made bindings constant stack world
        refine ⟨_, after, .of_result (Nat.le_refl _) rfl fails, fun constants limit => ?_⟩
        rw [Made.settle_result]
        simp only [perform, fetched]
        cases result <;> rfl

end

namespace Machine

variable {ω : Type} (m : Machine ω)

def settle (pc : Nat) (op : Opcode) (next : List UInt32) (made : Made) (after : ω) : Progress ω :=
  match made.settle m.limit with
  | .error cause => .stopped (.error ⟨pc, cause⟩) after
  | .ok stack => .moved ⟨pc + op.width, next, stack, after⟩

theorem step_unfetched {word : UInt32} {rest : List UInt32} {cause : RuntimeCause}
    (failed : fetch m.constants word rest = .error cause) (pc : Nat) (stack : Stack) (world : ω) :
    m.step ⟨pc, word :: rest, stack, world⟩ = .stopped (.error ⟨pc, cause⟩) world := by
  simp only [step, failed]

theorem step_fetched {word : UInt32} {rest next : List UInt32} {op : Opcode}
    {constant : Option Value}
    (found : fetch m.constants word rest = .ok ⟨op, constant, next⟩) {stack : Stack} {world after : ω}
    {made : Made} (performed : m.perform ⟨op, constant, []⟩ stack world = (made.settle m.limit, after))
    (pc : Nat) :
    m.step ⟨pc, word :: rest, stack, world⟩ = m.settle pc op next made after := by
  have same : m.perform ⟨op, constant, next⟩ = m.perform ⟨op, constant, []⟩ := rfl
  simp only [step, found, same, performed, settle]
  cases made.settle m.limit <;> rfl

variable {m} in
theorem runFrom_of_moved {c next : Config ω} (moved : m.step c = .moved next) :
    m.runFrom c = m.runFrom next := by
  rw [m.runFrom_eq, moved]

variable {m} in
theorem runFrom_of_stopped {c : Config ω} {result : Except RuntimeFault Stack} {after : ω}
    (stopped : m.step c = .stopped result after) : m.runFrom c = (result, after) := by
  rw [m.runFrom_eq, stopped]

theorem runFrom_stops (c : Config ω) :
    ∃ last, m.Reaches c last ∧ m.step last = .stopped (m.runFrom c).1 (m.runFrom c).2 := by
  fun_induction runFrom m c with
  | case1 c next moved ih =>
      obtain ⟨last, reached, stopped⟩ := ih
      exact ⟨last, .head moved reached, stopped⟩
  | case2 c result world stopped => exact ⟨c, .refl, stopped⟩

end Machine

end PredicateLang
