import PredicateLang.Bytecode.Opcode
import PredicateLang.Value.Written

set_option autoImplicit false

namespace PredicateLang

structure Program where
  words : List UInt32
  constants : List Value

inductive ProgramFault
  | invalidOpcode (pc : Nat) (word : UInt32)
  | missingOperand (pc : Nat) (opcode : Opcode)
  | constantOutOfRange (pc : Nat) (index : UInt32) (size : Nat)
  | operandKind (pc : Nat) (opcode : Opcode) (found : ValueKind)
  deriving DecidableEq

def ProgramFault.message : ProgramFault → String
  | .invalidOpcode pc word => s!"invalid opcode {word.toNat} at pc {pc}"
  | .missingOperand pc opcode => s!"{opcode.mnemonic} at pc {pc} is missing its operand"
  | .constantOutOfRange pc index size =>
      s!"operand at pc {pc} references constant {index.toNat} but pool size is {size}"
  | .operandKind pc opcode found =>
      s!"{opcode.mnemonic} at pc {pc} cannot take a {found.text} constant"

structure Instruction where
  pc : Nat
  opcode : Opcode
  operand : Option UInt32
  deriving DecidableEq

namespace Instruction

def WellFormed (instruction : Instruction) : Prop :=
  -- An operand is there exactly where the operation has one.
  instruction.operand.isSome = instruction.opcode.hasOperand

def encode (instruction : Instruction) : List UInt32 :=
  instruction.opcode.word :: instruction.operand.toList

end Instruction

def LoadKind.accepts : LoadKind → ValueKind → Bool
  | .int, kind => kind == .int || kind == .bool || kind == .char
  | .double, kind => kind == .double
  | .string, kind => kind == .string

namespace Program

def empty : Program := ⟨[], []⟩

def isEmpty (p : Program) : Bool := p.words.isEmpty

def pushWord (p : Program) (word : UInt32) : Program := { p with words := p.words ++ [word] }

def pushOpcode (p : Program) (opcode : Opcode) : Program := p.pushWord opcode.word

def nextIndex (p : Program) : UInt32 := p.constants.length.toUInt32

def pushConstant (p : Program) (v : Value) : Program :=
  { p with constants := p.constants ++ [v] }

def pushWithConstant (p : Program) (opcode : Opcode) (v : Value) : Program :=
  ((p.pushConstant v).pushOpcode opcode).pushWord p.nextIndex

def constant? (p : Program) (index : UInt32) : Option Value := p.constants[index.toNat]?

def decodeFrom (pc : Nat) : List UInt32 → List (Except ProgramFault Instruction)
  | [] => []
  | word :: rest =>
      match Opcode.ofWord? word with
      | none => [.error (.invalidOpcode pc word)]
      | some opcode =>
          if opcode.hasOperand then
            match rest with
            | [] => [.error (.missingOperand pc opcode)]
            | operand :: rest => .ok ⟨pc, opcode, some operand⟩ :: decodeFrom (pc + 2) rest
          else .ok ⟨pc, opcode, none⟩ :: decodeFrom (pc + 1) rest

def decode (p : Program) : List (Except ProgramFault Instruction) := decodeFrom 0 p.words

def encode (instructions : List Instruction) : List UInt32 :=
  instructions.flatMap Instruction.encode

def accepts : Opcode → ValueKind → Bool
  | .getStatic, kind => kind == .dataRef
  | .getAttr, kind => kind == .attrRef
  | .load load, kind => load.accepts kind
  | _, _ => true

def checkInstruction (p : Program) (instruction : Instruction) : Except ProgramFault Unit :=
  match instruction.operand with
  | none => .ok ()
  | some index =>
      match p.constant? index with
      | none => .error (.constantOutOfRange (instruction.pc + 1) index p.constants.length)
      | some v =>
          if accepts instruction.opcode v.kind then .ok ()
          else .error (.operandKind (instruction.pc + 1) instruction.opcode v.kind)

def checkAll (p : Program) : List (Except ProgramFault Instruction) → Except ProgramFault Unit
  | [] => .ok ()
  | .error fault :: _ => .error fault
  | .ok instruction :: rest =>
      match p.checkInstruction instruction with
      | .error fault => .error fault
      | .ok () => p.checkAll rest

def validate (p : Program) : Except ProgramFault Unit := p.checkAll p.decode

end Program

end PredicateLang
