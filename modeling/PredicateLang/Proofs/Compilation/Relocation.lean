import PredicateLang.Proofs.Compilation.Parts

set_option autoImplicit false

namespace PredicateLang

/-- The same instructions over constants that stand further on in the pool. -/
def readdress (offset : UInt32) : List UInt32 → List UInt32
  | word :: index :: rest =>
      if (Opcode.ofWord? word).any Opcode.hasOperand then word :: (index + offset) :: readdress offset rest
      else word :: readdress offset (index :: rest)
  | rest => rest

/-- Attributes know the index of the constant that they belong to. -/
def Value.readdress (offset : UInt32) : Value → Value
  | .attrRef name owner => .attrRef name (owner + offset)
  | v => v

def EmitContext.moved (offset : UInt32) (context : EmitContext) : EmitContext :=
  { context with nextConstant := context.nextConstant + offset }

theorem Value.kind_readdress (offset : UInt32) (v : Value) : (v.readdress offset).kind = v.kind := by
  cases v <;> rfl

section

variable {offset : UInt32}

theorem readdress_plain {word : UInt32} {op : Opcode} (known : Opcode.ofWord? word = some op)
    (alone : op.hasOperand = false) (rest : List UInt32) :
    readdress offset (word :: rest) = word :: readdress offset rest := by
  cases rest <;> simp [readdress, known, alone]

theorem readdress_withOperand {word : UInt32} {op : Opcode} (known : Opcode.ofWord? word = some op)
    (followed : op.hasOperand = true) (index : UInt32) (rest : List UInt32) :
    readdress offset (word :: index :: rest) = word :: (index + offset) :: readdress offset rest := by
  simp [readdress, known, followed]

theorem readdress_append {first : List UInt32} (whole : Whole first) (second : List UInt32) :
    readdress offset (first ++ second) = readdress offset first ++ readdress offset second := by
  induction whole with
  | nil => rfl
  | plain known alone _ ih =>
      rw [List.cons_append, readdress_plain known alone, readdress_plain known alone, ih]
      rfl
  | withOperand known followed _ ih =>
      rw [List.cons_append, List.cons_append, readdress_withOperand known followed,
        readdress_withOperand known followed, ih]
      rfl

structure Emitted.Moved (offset : UInt32) (e moved : Emitted) : Prop where
  words : moved.words = readdress offset e.words
  pool : moved.pool = e.pool.map (Value.readdress offset)
  outcome : moved.outcome = e.outcome.map (EmitContext.moved offset)

namespace Emitted

theorem Moved.andThen {first first' : Emitted} {next next' : EmitContext → Emitted}
    (whole : Whole first.words) (one : first.Moved offset first')
    (two : ∀ middle, (next middle).Moved offset (next' (middle.moved offset))) :
    (first.andThen next).Moved offset (first'.andThen next') := by
  have ended := one.outcome
  cases done : first.outcome with
  | error fault =>
      rw [done] at ended
      rw [andThen_of_error done, andThen_of_error ended]
      exact ⟨one.words, one.pool, rfl⟩
  | ok middle =>
      rw [done] at ended
      replace ended : first'.outcome = .ok (middle.moved offset) := ended
      have more := two middle
      constructor
      · rw [words_andThen done, words_andThen ended, readdress_append whole, one.words, more.words]
      · rw [pool_andThen done, pool_andThen ended, List.map_append, one.pool, more.pool]
      · rw [outcome_andThen done, outcome_andThen ended, more.outcome]

theorem moved_nothing (context : EmitContext) :
    (nothing context).Moved offset (nothing (context.moved offset)) := ⟨rfl, rfl, rfl⟩

theorem moved_opcode {op : Opcode} (alone : op.hasOperand = false) (context : EmitContext) :
    (opcode op context).Moved offset (opcode op (context.moved offset)) where
  words := (readdress_plain (Opcode.ofWord?_word op) alone []).symm
  pool := rfl
  outcome := rfl

theorem moved_constant {op : Opcode} (followed : op.hasOperand = true) (v : Value)
    (context : EmitContext) :
    (constant op v context).Moved offset
      (constant op (v.readdress offset) (context.moved offset)) where
  words := (readdress_withOperand (Opcode.ofWord?_word op) followed context.nextConstant []).symm
  pool := rfl
  outcome := by
    have place : context.nextConstant + offset + 1 = context.nextConstant + 1 + offset := by
      rw [UInt32.add_assoc, UInt32.add_comm offset, ← UInt32.add_assoc]
    simp [constant, Except.map, EmitContext.moved, Value.kind_readdress, place]

end Emitted

open Emitted

theorem moved_path (path : List String) (context : EmitContext) :
    (emitPath path context).Moved offset (emitPath path (context.moved offset)) := by
  induction path generalizing context with
  | nil => exact moved_nothing context
  | cons key rest ih =>
      have owner : context.nextConstant + offset - 1 = context.nextConstant - 1 + offset := by
        rw [UInt32.sub_eq_add_neg, UInt32.sub_eq_add_neg, UInt32.add_assoc,
          UInt32.add_comm offset, ← UInt32.add_assoc]
      have first : (constant .getAttr (.attrRef key (context.nextConstant - 1)) context).Moved offset
          (constant .getAttr (.attrRef key (context.nextConstant + offset - 1))
            (context.moved offset)) := by
        rw [owner]
        exact moved_constant rfl _ context
      exact first.andThen (laidOut_constant rfl rfl context).whole ih

theorem moved_identifier (name : Identifier) (context : EmitContext) :
    (emitIdentifier name context).Moved offset (emitIdentifier name (context.moved offset)) := by
  rw [emitIdentifier, emitIdentifier]
  split
  · exact (moved_constant rfl _ context).andThen (laidOut_constant rfl rfl context).whole
      (moved_path name.path)
  · exact moved_nothing context

theorem moved_literal {kind : LiteralKind} {raw : String} {v : Value}
    (known : Term.literalOf? kind raw = some v) (position : Position) (context : EmitContext) :
    (emitLiteral position kind raw context).Moved offset
      (emitLiteral position kind raw (context.moved offset)) := by
  cases kind with
  | string => exact moved_constant rfl _ context
  | boolean => exact moved_constant rfl _ context
  | number =>
      obtain ⟨x, read, -⟩ := Option.map_eq_some_iff.mp known
      simp only [emitLiteral, read]
      exact moved_constant rfl (.double x) context

theorem moved_operator {node left right : Node} (operands : node.operands? = some (left, right))
    (one : ∀ context, (emit left context).Moved offset (emit left (context.moved offset)))
    (two : ∀ context, (emit right context).Moved offset (emit right (context.moved offset)))
    (context : EmitContext) :
    (emit node context).Moved offset (emit node (context.moved offset)) := by
  have keeps : ∀ c, node.keeps (c.moved offset) = (node.keeps c).moved offset := by
    cases node <;> exact fun _ => rfl
  rw [emit_operator operands, emit_operator operands]
  refine (one context).andThen (laidOut_emit left context).whole fun before => ?_
  rw [keeps before]
  refine (two _).andThen (laidOut_emit right _).whole fun after => ?_
  rw [keeps after]
  exact moved_opcode (node.opcode_alone _ _) (node.keeps after)

theorem moved_emit {node : Node} (sound : node.Sound) (context : EmitContext) :
    (emit node context).Moved offset (emit node (context.moved offset)) := by
  induction sound generalizing context with
  | name name =>
      rw [emit, emit, emit, emit]
      exact moved_identifier name context
  | literal known =>
      rw [emit, emit, emit, emit]
      exact moved_literal known _ context
  | operator operands _ _ _ one two => exact moved_operator operands one two context

end

end PredicateLang
