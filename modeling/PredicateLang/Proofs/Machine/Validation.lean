import Mathlib.Logic.Relation
import PredicateLang.Proofs.Machine.Segments

set_option autoImplicit false

namespace PredicateLang

def RuntimeCause.structural : RuntimeCause → Bool
  | .invalidOpcode _ | .constantOutOfRange _ => true
  | .typeMismatch .getStatic _ | .typeMismatch .getAttr _ | .typeMismatch (.load _) _ => true
  | _ => false

def Tame {α : Type} (x : Except RuntimeCause α) : Prop :=
  ∀ cause, x = .error cause → cause.structural = false

namespace Tame

variable {α β : Type}

theorem ok (a : α) : Tame (.ok a : Except RuntimeCause α) := by
  intro cause same
  cases same

theorem error {cause : RuntimeCause} (mild : cause.structural = false) :
    Tame (.error cause : Except RuntimeCause α) := by
  intro other same
  cases same
  exact mild

theorem bind {x : Except RuntimeCause α} {f : α → Except RuntimeCause β} (first : Tame x)
    (second : ∀ a, Tame (f a)) : Tame (x >>= f) := by
  cases x with
  | error cause => exact error (first cause rfl)
  | ok a => exact second a

theorem push (limit : Nat) (v : Value) (stack : Stack) : Tame (Stack.push limit v stack) := by
  unfold Stack.push
  split
  · exact error rfl
  · exact ok _

theorem pop (op : Opcode) (stack : Stack) : Tame (stack.pop op) := by
  cases stack with
  | nil => exact error rfl
  | cons v rest => exact ok _

theorem popTwo (op : Opcode) (stack : Stack) : Tame (stack.popTwo op) := by
  rcases stack with _ | ⟨w, _ | ⟨v, rest⟩⟩
  · exact error rfl
  · exact error rfl
  · exact ok _

theorem intOperand {op : Opcode} (mild : ∀ kind, (RuntimeCause.typeMismatch op kind).structural = false)
    (v : Value) : Tame (intOperand op v) := by
  unfold PredicateLang.intOperand
  split
  · exact ok _
  · exact error (mild _)

theorem doubleOperand {op : Opcode}
    (mild : ∀ kind, (RuntimeCause.typeMismatch op kind).structural = false) (v : Value) :
    Tame (doubleOperand op v) := by
  unfold PredicateLang.doubleOperand
  split
  · exact ok _
  · exact error (mild _)

theorem intResult (operation : IntOperation) (v w : Value) : Tame (intResult operation v w) := by
  refine bind (intOperand (fun _ => rfl) v) fun i => bind (intOperand (fun _ => rfl) w) fun j => ?_
  split
  · exact error rfl
  · exact ok _

theorem doubleResult (operation : DoubleOperation) (v w : Value) :
    Tame (doubleResult operation v w) := by
  refine bind (doubleOperand (fun _ => rfl) v) fun x =>
    bind (doubleOperand (fun _ => rfl) w) fun y => ?_
  split
  · exact error rfl
  · exact ok _

theorem concatResult (v w : Value) : Tame (concatResult v w) := by
  unfold PredicateLang.concatResult
  split
  · exact ok _
  · exact error rfl
  · exact error rfl

theorem perform {op : Opcode} (alone : op.hasOperand = false) (limit : Nat) (stack : Stack) :
    Tame (op.perform none limit stack) := by
  cases op with
  | nop => exact ok _
  | int operation =>
      exact bind (popTwo _ stack) fun taken => bind (intResult operation _ _) fun v => push _ _ _
  | double operation =>
      exact bind (popTwo _ stack) fun taken => bind (doubleResult operation _ _) fun v => push _ _ _
  | convert conversion =>
      exact bind (pop _ stack) fun taken => bind (intOperand (fun _ => rfl) _) fun i => push _ _ _
  | concat => exact bind (concatResult _ _) fun v => push _ _ _
  | compare comparison => exact bind (popTwo _ stack) fun taken => push _ _ _
  -- These have an operand.
  | getStatic | getAttr | invoke | load => cases alone

end Tame

namespace Machine

variable {ω : Type} (m : Machine ω)

def Reaches : Config ω → Config ω → Prop :=
  Relation.ReflTransGen fun c next => m.step c = .moved next

-- What fails is the lookup in the value on the stack, not the constant that names the attribute.
def MismatchesTarget (c : Config ω) (found : ValueKind) : Prop :=
  ∃ word index rest name owner target under,
    c.code = word :: index :: rest ∧ Opcode.ofWord? word = some .getAttr ∧
      m.constants[index.toNat]? = some (.attrRef name owner) ∧ c.stack = target :: under ∧
      attribute? target name = .error (.typeMismatch .getAttr found) ∧ found = target.kind

/-- A fault that no look at the program alone could have foreseen. -/
structure Excused (start : Config ω) (fault : RuntimeFault) : Prop where
  opcode : ∀ word, fault.cause ≠ .invalidOpcode word
  constant : ∀ index, fault.cause ≠ .constantOutOfRange index
  static : ∀ found, fault.cause ≠ .typeMismatch .getStatic found
  load : ∀ kind found, fault.cause ≠ .typeMismatch (.load kind) found
  target : ∀ found, fault.cause = .typeMismatch .getAttr found →
    ∃ c, m.Reaches start c ∧ c.pc = fault.pc ∧ m.MismatchesTarget c found

variable {m}

theorem Excused.of_mild {start : Config ω} {fault : RuntimeFault}
    (mild : fault.cause.structural = false) : m.Excused start fault where
  opcode word same := by rw [same] at mild; cases mild
  constant index same := by rw [same] at mild; cases mild
  static found same := by rw [same] at mild; cases mild
  load kind found same := by rw [same] at mild; cases mild
  target found same := by rw [same] at mild; cases mild

theorem Excused.of_mismatch {start : Config ω} {found : ValueKind}
    (mismatch : m.MismatchesTarget start found) :
    m.Excused start ⟨start.pc, .typeMismatch .getAttr found⟩ where
  opcode word same := by cases same
  constant index same := by cases same
  static other same := by cases same
  load kind other same := by cases same
  target other same := by
    cases same
    exact ⟨start, .refl, rfl, mismatch⟩

theorem Excused.of_step {start next : Config ω} {fault : RuntimeFault}
    (moved : m.step start = .moved next) (h : m.Excused next fault) : m.Excused start fault where
  opcode := h.opcode
  constant := h.constant
  static := h.static
  load := h.load
  target found same := by
    obtain ⟨c, reached, rest⟩ := h.target found same
    exact ⟨c, .head moved reached, rest⟩

theorem attribute?_error {target : Value} {name : String} {cause : RuntimeCause}
    (failed : attribute? target name = .error cause) :
    cause.structural = false ∨ cause = .typeMismatch .getAttr target.kind := by
  unfold attribute? at failed
  split at failed
  · split at failed
    · cases failed
      exact .inl rfl
    · split at failed
      · cases failed
        exact .inl rfl
      · cases failed
  · split at failed
    · cases failed
      exact .inl rfl
    · cases failed
  · cases failed
    exact .inr rfl

theorem attributeOf_error {name : String} {owner : UInt32} {limit : Nat} {stack : Stack}
    {cause : RuntimeCause} (failed : attributeOf (.attrRef name owner) limit stack = .error cause) :
    cause.structural = false ∨ ∃ target under, stack = target :: under ∧
      cause = .typeMismatch .getAttr target.kind ∧ attribute? target name = .error cause := by
  cases stack with
  | nil =>
      cases failed
      exact .inl rfl
  | cons target under =>
      change (do Stack.push limit (← attribute? target name) under) = _ at failed
      cases found : attribute? target name with
      | error other =>
          rw [found] at failed
          cases failed
          rcases attribute?_error found with mild | mismatch
          · exact .inl mild
          · exact .inr ⟨target, under, rfl, mismatch, found⟩
      | ok v =>
          rw [found] at failed
          exact .inl (Tame.push _ _ _ cause failed)

theorem fetchBinding_mild {bindings : Bindings ω} {name : String} {scope : Scope} {world : ω}
    {cause : RuntimeCause}
    (failed : (fetchBinding bindings (.dataRef name scope) world).1 = .error cause) :
    cause.structural = false := by
  cases scope with
  | static =>
      simp only [fetchBinding] at failed
      rcases resolved : bindings.resolve name world with _ | ⟨fault | v, after⟩ <;>
        rw [resolved] at failed <;> cases failed <;> rfl
  | _ =>
      cases failed
      rfl

theorem perform_rejected {op : Opcode} {constant : Value}
    (rejected : Program.accepts op constant.kind = false) (stack : Stack) (world : ω) :
    m.perform ⟨op, some constant, []⟩ stack world =
      (.error (.typeMismatch op constant.kind), world) := by
  cases op with
  | getStatic =>
      cases constant with
      | dataRef name scope => cases rejected
      | _ => rfl
  | getAttr =>
      cases constant with
      | attrRef name owner => cases rejected
      | _ => rfl
  | load kind =>
      simp only [Program.accepts] at rejected
      simp [Machine.perform, Opcode.perform, loadOf, rejected]
  | _ => cases rejected

theorem perform_accepted {op : Opcode} {constant : Value} (followed : op.hasOperand = true)
    (suits : Program.accepts op constant.kind = true) {stack : Stack} {world : ω}
    {cause : RuntimeCause}
    (failed : (m.perform ⟨op, some constant, []⟩ stack world).1 = .error cause) :
    cause.structural = false ∨ ∃ name owner target under, op = .getAttr ∧
      constant = .attrRef name owner ∧ stack = target :: under ∧
      cause = .typeMismatch .getAttr target.kind ∧ attribute? target name = .error cause := by
  cases op with
  | getStatic =>
      cases constant with
      | dataRef name scope =>
          have mild := @fetchBinding_mild ω m.bindings name scope world
          simp only [Machine.perform] at failed
          rcases fetched : fetchBinding m.bindings (.dataRef name scope) world with ⟨fault | v, after⟩
          · rw [fetched] at failed mild
            cases failed
            exact .inl (mild rfl)
          · rw [fetched] at failed
            exact .inl (Tame.push _ _ _ cause failed)
      | _ => cases suits
  | getAttr =>
      cases constant with
      | attrRef name owner =>
          have missed : attributeOf (.attrRef name owner) m.limit stack = .error cause := failed
          rcases attributeOf_error missed with mild | ⟨target, under, held, mismatch, found⟩
          · exact .inl mild
          · exact .inr ⟨name, owner, target, under, rfl, rfl, held, mismatch, found⟩
      | _ => cases suits
  | invoke =>
      cases failed
      exact .inl rfl
  | load kind =>
      simp only [Program.accepts] at suits
      simp only [Machine.perform, Opcode.perform, loadOf, suits, if_true] at failed
      exact .inl (Tame.push _ _ _ cause failed)
  | _ => cases followed

/-- The fault of a run that a fault of the program announces. -/
inductive Announces : ProgramFault → RuntimeFault → Prop
  -- The validator counts the place of an operand, the machine that of the operation before it.
  | invalidOpcode (pc : Nat) (word : UInt32) :
      Announces (.invalidOpcode pc word) ⟨pc, .invalidOpcode word⟩
  | missingOperand (pc : Nat) (op : Opcode) :
      Announces (.missingOperand pc op) ⟨pc, .constantOutOfRange none⟩
  | constantOutOfRange (pc : Nat) (index : UInt32) (size : Nat) :
      Announces (.constantOutOfRange (pc + 1) index size) ⟨pc, .constantOutOfRange (some index)⟩
  | operandKind (pc : Nat) (op : Opcode) (found : ValueKind) :
      Announces (.operandKind (pc + 1) op found) ⟨pc, .typeMismatch op found⟩

def Agrees (m : Machine ω) (c : Config ω) : Except ProgramFault Unit → Prop
  | .ok () => ∀ fault, (m.runFrom c).1 = .error fault → m.Excused c fault
  | .error found => ∃ expected, Announces found expected ∧ c.pc ≤ expected.pc ∧
      ∃ actual, (m.runFrom c).1 = .error actual ∧ (actual.pc < expected.pc ∨ actual = expected)

theorem Agrees.here {c : Config ω} {found : ProgramFault} {cause : RuntimeCause}
    (announced : Announces found ⟨c.pc, cause⟩) {world : ω}
    (failed : m.runFrom c = (.error ⟨c.pc, cause⟩, world)) : m.Agrees c (.error found) :=
  ⟨_, announced, Nat.le_refl _, _, congrArg Prod.fst failed, .inr rfl⟩

theorem Agrees.next {op : Opcode} {constant : Option Value} {word : UInt32}
    {rest next : List UInt32} (found : fetch m.constants word rest = .ok ⟨op, constant, next⟩)
    {pc : Nat} {stack : Stack} {world : ω}
    (excused : ∀ cause, (m.perform ⟨op, constant, []⟩ stack world).1 = .error cause →
      m.Excused ⟨pc, word :: rest, stack, world⟩ ⟨pc, cause⟩)
    {verdict : Except ProgramFault Unit}
    (later : ∀ left after, m.Agrees ⟨pc + op.width, next, left, after⟩ verdict) :
    m.Agrees ⟨pc, word :: rest, stack, world⟩ verdict := by
  have wide := op.width_pos
  have run := m.runFrom_fetched found pc stack world
  rcases performed : m.perform ⟨op, constant, []⟩ stack world with ⟨cause | left, after⟩
  · -- The run ends here, before anything that the validator may find later.
    have stopped : m.runFrom ⟨pc, word :: rest, stack, world⟩ = (.error ⟨pc, cause⟩, after) := by
      rw [run, act, performed]
      rfl
    rcases verdict with ⟨fault⟩ | _
    · obtain ⟨expected, announced, place, -⟩ := later stack after
      replace place : pc + op.width ≤ expected.pc := place
      exact ⟨expected, announced, by simp only; omega, ⟨pc, cause⟩, by rw [stopped],
        .inl (by simp only; omega)⟩
    · intro fault failed
      rw [stopped] at failed
      cases failed
      exact excused cause (by rw [performed])
  · have moved : m.step ⟨pc, word :: rest, stack, world⟩ =
        .moved ⟨pc + op.width, next, left, after⟩ := by
      have same : m.perform ⟨op, constant, next⟩ = m.perform ⟨op, constant, []⟩ := rfl
      simp only [step, found, same, performed]
    have onward : m.runFrom ⟨pc, word :: rest, stack, world⟩ =
        m.runFrom ⟨pc + op.width, next, left, after⟩ := by
      rw [run, act, performed]
      rfl
    rcases verdict with ⟨fault⟩ | _
    · obtain ⟨expected, announced, place, actual, failed, order⟩ := later left after
      replace place : pc + op.width ≤ expected.pc := place
      exact ⟨expected, announced, by simp only; omega, actual, by rw [onward, failed], order⟩
    · intro fault failed
      rw [onward] at failed
      exact .of_step moved (later left after fault failed)

theorem agrees_of_words (p : Program) (bindings : Bindings ω) (limit pc : Nat)
    (words : List UInt32) (stack : Stack) (world : ω) :
    Agrees ⟨p.constants, bindings, limit⟩ ⟨pc, words, stack, world⟩
      (p.checkAll (Program.decodeFrom pc words)) := by
  let m : Machine ω := ⟨p.constants, bindings, limit⟩
  -- The cases are those of the decoder; in each the machine fetches from the same words.
  fun_induction Program.decodeFrom pc words generalizing stack world with
  | case1 pc =>
      intro fault failed
      rw [runFrom_nil] at failed
      cases failed
  | case2 pc word rest unknown =>
      have failed := fetch_unknown unknown m.constants rest
      exact .here (.invalidOpcode pc word) (m.runFrom_unfetched failed pc stack world)
  | case3 pc word op known followed =>
      have failed := fetch_unfollowed known followed m.constants
      exact .here (.missingOperand pc op) (m.runFrom_unfetched failed pc stack world)
  | case4 pc word op known followed index rest ih =>
      have fetched := fetch_withOperand known followed m.constants index rest
      cases held : p.constants[index.toNat]? with
      | none =>
          have failed : fetch m.constants word (index :: rest) =
              .error (.constantOutOfRange (some index)) := by rw [fetched, held]; rfl
          rw [Program.checkAll_outOfRange held]
          exact .here (.constantOutOfRange pc index _) (m.runFrom_unfetched failed pc stack world)
      | some constant =>
          have found : fetch m.constants word (index :: rest) = .ok ⟨op, some constant, rest⟩ := by
            rw [fetched, held]
            rfl
          by_cases suits : Program.accepts op constant.kind = true
          · rw [Program.checkAll_accepted held suits]
            refine .next found (fun cause failed => ?_) fun left after => by
              rw [Opcode.width_followed followed]
              exact ih left after
            rcases perform_accepted followed suits failed with
              mild | ⟨name, owner, target, under, rfl, rfl, rfl, rfl, missed⟩
            · exact .of_mild mild
            · exact .of_mismatch ⟨word, index, rest, name, owner, target, under, rfl, known, held, rfl,
                missed, rfl⟩
          · have rejected : Program.accepts op constant.kind = false := by simpa using suits
            have stopped := m.runFrom_fetched found pc stack world
            rw [act, perform_rejected rejected] at stopped
            rw [Program.checkAll_rejected held rejected]
            exact .here (.operandKind pc op constant.kind) stopped
  | case5 pc word rest op known alone ih =>
      have alone : op.hasOperand = false := by simpa using alone
      have other : op ≠ .getStatic := by rintro rfl; cases alone
      rw [Program.checkAll_alone]
      refine .next (fetch_plain known alone _ rest) (fun cause failed => ?_) fun left after => by
        rw [Opcode.width_alone alone]
        exact ih left after
      rw [m.perform_of_ne other] at failed
      exact .of_mild (Tame.perform alone _ _ cause failed)

end Machine

/-- A valid program never fails for what it is made of; an invalid one fails where the validator says, or
before. -/
theorem validate_agrees_with_run {ω : Type} (p : Program) (bindings : Bindings ω) (limit : Nat)
    (world : ω) :
    (p.validate = .ok () → ∀ fault, (p.run bindings limit world).1 = .error fault →
      Machine.Excused ⟨p.constants, bindings, limit⟩ ⟨0, p.words, [], world⟩ fault) ∧
    ∀ found, p.validate = .error found → ∃ expected, Machine.Announces found expected ∧
      ∃ actual, (p.run bindings limit world).1 = .error actual ∧
        (actual.pc < expected.pc ∨ actual = expected) := by
  have agrees := Machine.agrees_of_words p bindings limit 0 p.words [] world
  have same (fault : RuntimeFault) : (p.run bindings limit world).1 = .error fault ↔
      (Machine.runFrom ⟨p.constants, bindings, limit⟩ ⟨0, p.words, [], world⟩).1 = .error fault := by
    simp only [Program.run, Machine.run]
    rcases Machine.runFrom _ _ with ⟨other | stack, after⟩ <;> simp [Except.map]
  constructor
  · intro valid fault failed
    change p.checkAll (Program.decodeFrom 0 p.words) = .ok () at valid
    rw [valid] at agrees
    exact agrees fault ((same fault).mp failed)
  · intro found invalid
    change p.checkAll (Program.decodeFrom 0 p.words) = .error found at invalid
    rw [invalid] at agrees
    obtain ⟨expected, announced, -, actual, failed, order⟩ := agrees
    exact ⟨expected, announced, actual, (same actual).mpr failed, order⟩

end PredicateLang
