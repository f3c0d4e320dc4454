import PredicateLang.Bytecode.Program

set_option autoImplicit false

namespace PredicateLang

inductive Whole : List UInt32 → Prop
  | nil : Whole []
  | plain {word : UInt32} {op : Opcode} {rest : List UInt32}
      (known : Opcode.ofWord? word = some op) (alone : op.hasOperand = false)
      (more : Whole rest) : Whole (word :: rest)
  | withOperand {word index : UInt32} {op : Opcode} {rest : List UInt32}
      (known : Opcode.ofWord? word = some op) (followed : op.hasOperand = true)
      (more : Whole rest) : Whole (word :: index :: rest)

namespace Whole

theorem append {first second : List UInt32} (one : Whole first) (two : Whole second) :
    Whole (first ++ second) := by
  induction one with
  | nil => exact two
  | plain known alone _ ih => exact .plain known alone ih
  | withOperand known followed _ ih => exact .withOperand known followed ih

theorem operation {op : Opcode} (alone : op.hasOperand = false) : Whole [op.word] :=
  .plain (Opcode.ofWord?_word op) alone .nil

theorem reference {op : Opcode} (followed : op.hasOperand = true) (index : UInt32) :
    Whole [op.word, index] :=
  .withOperand (Opcode.ofWord?_word op) followed .nil

end Whole

theorem Opcode.width_pos (op : Opcode) : 0 < op.width := by
  unfold Opcode.width
  split <;> omega

theorem Opcode.width_alone {op : Opcode} (alone : op.hasOperand = false) : op.width = 1 := by
  simp [width, alone]

theorem Opcode.width_followed {op : Opcode} (followed : op.hasOperand = true) : op.width = 2 := by
  simp [width, followed]

namespace Program

theorem decodeFrom_append {first : List UInt32} (whole : Whole first) (second : List UInt32)
    (pc : Nat) :
    decodeFrom pc (first ++ second) =
      decodeFrom pc first ++ decodeFrom (pc + first.length) second := by
  induction whole generalizing pc with
  | nil => rfl
  | @plain word op rest known alone _ ih =>
      have shift : pc + (rest.length + 1) = pc + 1 + rest.length := by omega
      simp [decodeFrom, known, alone, ih, shift]
  | @withOperand word index op rest known followed _ ih =>
      have shift : pc + (rest.length + 1 + 1) = pc + 2 + rest.length := by omega
      simp [decodeFrom, known, followed, ih, shift]

theorem checkAll_append {p : Program} {first : List (Except ProgramFault Instruction)}
    (good : p.checkAll first = .ok ()) (second : List (Except ProgramFault Instruction)) :
    p.checkAll (first ++ second) = p.checkAll second := by
  induction first with
  | nil => rfl
  | cons item rest ih =>
      cases item with
      | error fault => cases good
      | ok instruction =>
          simp only [List.cons_append, checkAll] at good ⊢
          cases checked : p.checkInstruction instruction with
          | error fault => rw [checked] at good; cases good
          | ok _ =>
              rw [checked] at good
              exact ih good

variable {p : Program} {pc : Nat} {op : Opcode} {index : UInt32} {constant : Value}

theorem checkAll_alone (rest : List (Except ProgramFault Instruction)) :
    p.checkAll (.ok ⟨pc, op, none⟩ :: rest) = p.checkAll rest := by
  simp [checkAll, checkInstruction]

theorem checkAll_accepted (held : p.constant? index = some constant)
    (suits : accepts op constant.kind = true) (rest : List (Except ProgramFault Instruction)) :
    p.checkAll (.ok ⟨pc, op, some index⟩ :: rest) = p.checkAll rest := by
  simp [checkAll, checkInstruction, held, suits]

theorem checkAll_rejected (held : p.constant? index = some constant)
    (rejected : accepts op constant.kind = false) (rest : List (Except ProgramFault Instruction)) :
    p.checkAll (.ok ⟨pc, op, some index⟩ :: rest) =
      .error (.operandKind (pc + 1) op constant.kind) := by
  simp [checkAll, checkInstruction, held, rejected]

theorem checkAll_outOfRange (missing : p.constant? index = none)
    (rest : List (Except ProgramFault Instruction)) :
    p.checkAll (.ok ⟨pc, op, some index⟩ :: rest) =
      .error (.constantOutOfRange (pc + 1) index p.constants.length) := by
  simp [checkAll, checkInstruction, missing]

-- Wherever the words stand: a segment is checked at the place that the words before it lead to.
def Passes (p : Program) (words : List UInt32) : Prop :=
  ∀ pc, p.checkAll (decodeFrom pc words) = .ok ()

theorem Passes.nil (p : Program) : p.Passes [] := fun _ => rfl

theorem Passes.append {first second : List UInt32} (whole : Whole first)
    (one : p.Passes first) (two : p.Passes second) : p.Passes (first ++ second) := by
  intro pc
  rw [decodeFrom_append whole, checkAll_append (one pc)]
  exact two _

theorem Passes.operation (p : Program) (alone : op.hasOperand = false) : p.Passes [op.word] := by
  intro pc
  simp only [decodeFrom, Opcode.ofWord?_word, alone, Bool.false_eq_true, if_false]
  exact checkAll_alone []

theorem Passes.reference (followed : op.hasOperand = true)
    (held : p.constant? index = some constant) (suits : accepts op constant.kind = true) :
    p.Passes [op.word, index] := by
  intro pc
  simp only [decodeFrom, Opcode.ofWord?_word, followed, if_true]
  exact checkAll_accepted held suits []

end Program

end PredicateLang
