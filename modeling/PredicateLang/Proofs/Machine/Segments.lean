import PredicateLang.Machine.Run
import PredicateLang.Proofs.Bytecode.Segments

set_option autoImplicit false

namespace PredicateLang.Machine

variable {ω : Type} (m : Machine ω)

theorem runFrom_eq (c : Config ω) :
    m.runFrom c = match m.step c with
      | .moved next => m.runFrom next
      | .stopped result world => (result, world) := by
  rw [runFrom]
  split <;> simp_all

@[simp] theorem runFrom_nil (pc : Nat) (stack : Stack) (world : ω) :
    m.runFrom ⟨pc, [], stack, world⟩ = (.ok stack, world) := by
  rw [runFrom_eq]
  rfl

def goOn (ended : Except RuntimeFault Stack × ω)
    (next : Stack → ω → Except RuntimeFault Stack × ω) : Except RuntimeFault Stack × ω :=
  match ended with
  | (.error fault, after) => (.error fault, after)
  | (.ok stack, after) => next stack after

def act (pc : Nat) (op : Opcode) (constant : Option Value) (stack : Stack) (world : ω) :
    Except RuntimeFault Stack × ω :=
  match m.perform ⟨op, constant, []⟩ stack world with
  | (.error cause, after) => (.error ⟨pc, cause⟩, after)
  | (.ok stack, after) => (.ok stack, after)

theorem runFrom_fetched {op : Opcode} {constant : Option Value} {word : UInt32}
    {rest next : List UInt32}
    (found : fetch m.constants word rest = .ok ⟨op, constant, next⟩) (pc : Nat) (stack : Stack)
    (world : ω) :
    m.runFrom ⟨pc, word :: rest, stack, world⟩ =
      goOn (m.act pc op constant stack world) fun stack after =>
        m.runFrom ⟨pc + op.width, next, stack, after⟩ := by
  have same : m.perform ⟨op, constant, next⟩ = m.perform ⟨op, constant, []⟩ := rfl
  rw [runFrom_eq]
  simp only [step, found, same, act]
  rcases m.perform ⟨op, constant, []⟩ stack world with ⟨cause | stack, after⟩ <;> rfl

theorem runFrom_unfetched {word : UInt32} {rest : List UInt32} {cause : RuntimeCause}
    (failed : fetch m.constants word rest = .error cause) (pc : Nat) (stack : Stack) (world : ω) :
    m.runFrom ⟨pc, word :: rest, stack, world⟩ = (.error ⟨pc, cause⟩, world) := by
  rw [runFrom_eq]
  simp only [step, failed]

theorem fetch_plain {op : Opcode} {word : UInt32} (known : Opcode.ofWord? word = some op)
    (alone : op.hasOperand = false) (constants : List Value) (rest : List UInt32) :
    fetch constants word rest = .ok ⟨op, none, rest⟩ := by
  simp [fetch, known, alone]

theorem fetch_withOperand {op : Opcode} {word : UInt32} (known : Opcode.ofWord? word = some op)
    (followed : op.hasOperand = true) (constants : List Value) (index : UInt32)
    (rest : List UInt32) :
    fetch constants word (index :: rest) =
      (constants[index.toNat]?).elim (.error (.constantOutOfRange (some index)))
        fun constant => .ok ⟨op, some constant, rest⟩ := by
  simp only [fetch, known, followed, if_true]
  cases constants[index.toNat]? <;> rfl

theorem fetch_unknown {word : UInt32} (unknown : Opcode.ofWord? word = none) (constants : List Value)
    (rest : List UInt32) : fetch constants word rest = .error (.invalidOpcode word) := by
  simp [fetch, unknown]

theorem fetch_unfollowed {op : Opcode} {word : UInt32} (known : Opcode.ofWord? word = some op)
    (followed : op.hasOperand = true) (constants : List Value) :
    fetch constants word [] = .error (.constantOutOfRange none) := by
  simp [fetch, known, followed]

theorem goOn_goOn (ended : Except RuntimeFault Stack × ω)
    (next last : Stack → ω → Except RuntimeFault Stack × ω) :
    goOn (goOn ended next) last = goOn ended fun stack world => goOn (next stack world) last := by
  rcases ended with ⟨fault | stack, world⟩ <;> rfl

theorem runFrom_append {first : List UInt32} (whole : Whole first) (second : List UInt32)
    (pc : Nat) (stack : Stack) (world : ω) :
    m.runFrom ⟨pc, first ++ second, stack, world⟩ =
      goOn (m.runFrom ⟨pc, first, stack, world⟩) fun stack after =>
        m.runFrom ⟨pc + first.length, second, stack, after⟩ := by
  -- A fault ends both runs at the same place; otherwise the first instruction goes and the rest
  -- of the segment is run from wherever it has led.
  induction whole generalizing pc stack world with
  | nil => simp [goOn]
  | @plain word op rest known alone _ ih =>
      have shift : pc + (rest.length + 1) = pc + 1 + rest.length := by omega
      rw [List.cons_append, runFrom_fetched m (fetch_plain known alone _ _),
        runFrom_fetched m (fetch_plain known alone _ _), goOn_goOn]
      simp only [Opcode.width_alone alone, ih, List.length_cons, shift]
  | @withOperand word index op rest known followed _ ih =>
      have shift : pc + (rest.length + 1 + 1) = pc + 2 + rest.length := by omega
      have fetched (more : List UInt32) :=
        fetch_withOperand known followed m.constants index more
      cases held : m.constants[index.toNat]? with
      | none =>
          simp only [held] at fetched
          rw [List.cons_append, List.cons_append, runFrom_unfetched m (fetched _),
            runFrom_unfetched m (fetched _)]
          rfl
      | some constant =>
          simp only [held] at fetched
          rw [List.cons_append, List.cons_append, runFrom_fetched m (fetched _),
            runFrom_fetched m (fetched _), goOn_goOn]
          simp only [Opcode.width_followed followed, ih, List.length_cons, shift]

theorem perform_of_ne {op : Opcode} (other : op ≠ .getStatic) (constant : Option Value)
    (stack : Stack) (world : ω) :
    m.perform ⟨op, constant, []⟩ stack world = (op.perform constant m.limit stack, world) := by
  cases op with
  | getStatic => exact absurd rfl other
  | _ => rfl

def causes (ended : Except RuntimeFault Stack × ω) : Except RuntimeCause Stack × ω :=
  (ended.1.mapError RuntimeFault.cause, ended.2)

theorem causes_goOn_ok {ended : Except RuntimeFault Stack × ω} {stack : Stack} {after : ω}
    (done : causes ended = (.ok stack, after))
    (next : Stack → ω → Except RuntimeFault Stack × ω) :
    causes (goOn ended next) = causes (next stack after) := by
  rcases ended with ⟨fault | stack', world⟩
  · cases done
  · cases done
    rfl

theorem causes_goOn_error {ended : Except RuntimeFault Stack × ω} {cause : RuntimeCause}
    {after : ω} (failed : causes ended = (.error cause, after))
    (next : Stack → ω → Except RuntimeFault Stack × ω) :
    causes (goOn ended next) = (.error cause, after) := by
  rcases ended with ⟨fault | stack', world⟩
  · exact failed
  · cases failed

@[simp] theorem causes_act (pc : Nat) (op : Opcode) (constant : Option Value) (stack : Stack)
    (world : ω) : causes (m.act pc op constant stack world) = m.perform ⟨op, constant, []⟩ stack world := by
  unfold act
  rcases m.perform ⟨op, constant, []⟩ stack world with ⟨cause | stack', after⟩ <;> rfl

theorem causes_operation {op : Opcode} (alone : op.hasOperand = false) (pc : Nat) (stack : Stack)
    (world : ω) :
    causes (m.runFrom ⟨pc, [op.word], stack, world⟩) = m.perform ⟨op, none, []⟩ stack world := by
  rw [runFrom_fetched m (fetch_plain (Opcode.ofWord?_word op) alone _ _), ← causes_act m pc]
  rcases m.act pc op none stack world with ⟨fault | stack', after⟩ <;> simp [goOn]

theorem causes_reference {op : Opcode} {index : UInt32} {constant : Value}
    (followed : op.hasOperand = true) (held : m.constants[index.toNat]? = some constant)
    (rest : List UInt32) (pc : Nat) (stack : Stack) (world : ω) :
    causes (m.runFrom ⟨pc, op.word :: index :: rest, stack, world⟩) =
      causes (goOn (m.act pc op (some constant) stack world) fun stack after =>
        m.runFrom ⟨pc + op.width, rest, stack, after⟩) := by
  have found := fetch_withOperand (Opcode.ofWord?_word op) followed m.constants index rest
  rw [held] at found
  rw [runFrom_fetched m found]

end PredicateLang.Machine
