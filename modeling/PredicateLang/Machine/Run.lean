import PredicateLang.Machine.Operation

set_option autoImplicit false

namespace PredicateLang

structure Machine (ω : Type) where
  constants : List Value
  bindings : Bindings ω
  -- How many operands the stack may hold.
  limit : Nat

structure Config (ω : Type) where
  pc : Nat
  -- The words from the next instruction on.
  code : List UInt32
  stack : Stack
  world : ω

inductive Progress (ω : Type)
  | moved (next : Config ω)
  | stopped (result : Except RuntimeFault Stack) (world : ω)

structure Fetched where
  opcode : Opcode
  constant : Option Value
  rest : List UInt32

def fetch (constants : List Value) (word : UInt32) (rest : List UInt32) :
    Except RuntimeCause Fetched :=
  match Opcode.ofWord? word with
  | none => .error (.invalidOpcode word)
  | some opcode =>
      if opcode.hasOperand then
        match rest with
        | [] => .error (.constantOutOfRange none)
        | index :: rest =>
            match constants[index.toNat]? with
            | none => .error (.constantOutOfRange (some index))
            | some constant => .ok ⟨opcode, some constant, rest⟩
      else .ok ⟨opcode, none, rest⟩

theorem length_rest_le {constants : List Value} {word : UInt32} {rest : List UInt32}
    {fetched : Fetched} (h : fetch constants word rest = .ok fetched) :
    fetched.rest.length ≤ rest.length := by
  unfold fetch at h
  split at h
  · cases h
  · split at h
    · split at h
      · cases h
      · split at h
        · cases h
        · cases h
          simp
    · cases h
      simp

namespace Machine

variable {ω : Type}

def perform (m : Machine ω) (fetched : Fetched) (stack : Stack) (world : ω) :
    Except RuntimeCause Stack × ω :=
  match fetched.opcode, fetched.constant with
  | .getStatic, some constant =>
      match fetchBinding m.bindings constant world with
      | (.error cause, after) => (.error cause, after)
      | (.ok v, after) => (stack.push m.limit v, after)
  | opcode, constant => (opcode.perform constant m.limit stack, world)

def step (m : Machine ω) (c : Config ω) : Progress ω :=
  match c.code with
  | [] => .stopped (.ok c.stack) c.world
  | word :: rest =>
      match fetch m.constants word rest with
      | .error cause => .stopped (.error ⟨c.pc, cause⟩) c.world
      | .ok fetched =>
          match m.perform fetched c.stack c.world with
          | (.error cause, after) => .stopped (.error ⟨c.pc, cause⟩) after
          | (.ok stack, after) =>
              .moved ⟨c.pc + fetched.opcode.width, fetched.rest, stack, after⟩

theorem length_code_lt {m : Machine ω} {c next : Config ω} (h : m.step c = .moved next) :
    next.code.length < c.code.length := by
  unfold step at h
  split at h
  · cases h
  · rename_i word rest held
    split at h
    · cases h
    · rename_i fetched found
      have shorter := length_rest_le found
      split at h
      · cases h
      · cases h
        simp [held]
        omega

def runFrom (m : Machine ω) (c : Config ω) : Except RuntimeFault Stack × ω :=
  match _moved : m.step c with
  | .moved next => m.runFrom next
  | .stopped result world => (result, world)
termination_by c.code.length
decreasing_by exact length_code_lt _moved

def run (m : Machine ω) (words : List UInt32) (world : ω) : Except RuntimeFault Stack × ω :=
  m.runFrom ⟨0, words, [], world⟩

end Machine

def Program.run {ω : Type} (p : Program) (bindings : Bindings ω) (limit : Nat) (world : ω) :
    Except RuntimeFault (Option Value) × ω :=
  -- The value on top of the stack at the end of a program, if there is one.
  match (Machine.mk p.constants bindings limit).run p.words world with
  | (result, after) => (result.map List.head?, after)

end PredicateLang
