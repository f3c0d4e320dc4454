import Mathlib.Tactic.SplitIfs
import PredicateLang.Compilation
import PredicateLang.Proofs.Bytecode.Segments

set_option autoImplicit false

namespace PredicateLang

def Hosts (constants : List Value) (start : UInt32) (own : List Value) : Prop :=
  -- An index has 32 bits, so in a longer pool it would not say where the constants stand.
  constants.length < UInt32.size ∧
    ∃ before behind, before.length = start.toNat ∧ constants = before ++ own ++ behind

namespace Hosts

variable {constants : List Value} {start : UInt32}

theorem left {first second : List Value} (h : Hosts constants start (first ++ second)) :
    Hosts constants start first := by
  obtain ⟨bound, before, behind, place, rfl⟩ := h
  exact ⟨bound, before, second ++ behind, place, by simp⟩

theorem right {first second : List Value} (h : Hosts constants start (first ++ second)) :
    Hosts constants (start + .ofNat first.length) second := by
  obtain ⟨bound, before, behind, place, rfl⟩ := h
  refine ⟨bound, before ++ first, behind, ?_, by simp⟩
  simp only [List.length_append, UInt32.size] at bound
  rw [UInt32.toNat_add, UInt32.toNat_ofNat', List.length_append, place]
  omega

theorem get {v : Value} (h : Hosts constants start [v]) :
    constants[start.toNat]? = some v := by
  obtain ⟨_, before, behind, place, rfl⟩ := h
  simp [← place]

theorem whole {own : List Value} (few : own.length < UInt32.size) : Hosts own 0 own :=
  ⟨few, [], [], rfl, by simp⟩

end Hosts

namespace Emitted

def words (e : Emitted) : List UInt32 := e.items.filterMap Emission.word?

def pool (e : Emitted) : List Value := e.items.filterMap Emission.constant?

@[simp] theorem words_nothing (context : EmitContext) : (nothing context).words = [] := rfl

@[simp] theorem pool_nothing (context : EmitContext) : (nothing context).pool = [] := rfl

@[simp] theorem words_opcode (op : Opcode) (context : EmitContext) :
    (opcode op context).words = [op.word] := rfl

@[simp] theorem pool_opcode (op : Opcode) (context : EmitContext) :
    (opcode op context).pool = [] := rfl

@[simp] theorem words_constant (op : Opcode) (v : Value) (context : EmitContext) :
    (constant op v context).words = [op.word, context.nextConstant] := rfl

@[simp] theorem pool_constant (op : Opcode) (v : Value) (context : EmitContext) :
    (constant op v context).pool = [v] := rfl

variable {first : Emitted} {next : EmitContext → Emitted} {context : EmitContext}

theorem andThen_of_error {fault : CompileFault} (failed : first.outcome = .error fault) :
    first.andThen next = ⟨first.items, .error fault⟩ := by
  simp [andThen, failed]

theorem andThen_of_ok (done : first.outcome = .ok context) :
    first.andThen next = ⟨first.items ++ (next context).items, (next context).outcome⟩ := by
  simp [andThen, done]

theorem outcome_andThen (done : first.outcome = .ok context) :
    (first.andThen next).outcome = (next context).outcome := by
  simp [andThen, done]

theorem words_andThen (done : first.outcome = .ok context) :
    (first.andThen next).words = first.words ++ (next context).words := by
  simp [andThen, done, words]

theorem pool_andThen (done : first.outcome = .ok context) :
    (first.andThen next).pool = first.pool ++ (next context).pool := by
  simp [andThen, done, pool]

/-- A property of emissions whose first constant has an index, kept by every way to put emissions together. -/
structure Closed (good : UInt32 → Emitted → Prop) : Prop where
  nothing : ∀ context, good context.nextConstant (nothing context)
  opcode : ∀ {op : Opcode}, op.hasOperand = false →
    ∀ context, good context.nextConstant (opcode op context)
  constant : ∀ {op : Opcode} {v : Value}, op.hasOperand = true → Program.accepts op v.kind = true →
    ∀ context, good context.nextConstant (constant op v context)
  fault : ∀ start fault, good start ⟨[], .error fault⟩
  andThen : ∀ {start : UInt32} {first : Emitted} {next : EmitContext → Emitted}, good start first →
    (∀ middle, first.outcome = .ok middle → good middle.nextConstant (next middle)) →
      good start (first.andThen next)

end Emitted

open Emitted

theorem arithmeticOpcode_alone (op : Arithmetic) (left right : Option ValueKind) :
    (arithmeticOpcode op left right).hasOperand = false := by
  cases op with
  | add =>
      simp only [arithmeticOpcode]
      split_ifs <;> rfl
  | _ => rfl

theorem connectiveOpcode_alone (op : Connective) : (connectiveOpcode op).hasOperand = false := by
  cases op <;> rfl

namespace Emitted

variable {good : UInt32 → Emitted → Prop}

theorem Closed.path (closed : Closed good) (path : List String) (context : EmitContext) :
    good context.nextConstant (emitPath path context) := by
  induction path generalizing context with
  | nil => exact closed.nothing context
  | cons key rest ih => exact closed.andThen (closed.constant rfl rfl context) fun middle _ => ih middle

theorem Closed.identifier (closed : Closed good) (name : Identifier) (context : EmitContext) :
    good context.nextConstant (emitIdentifier name context) := by
  unfold emitIdentifier
  split
  · exact closed.andThen (closed.constant rfl rfl context) fun middle _ => closed.path _ middle
  · exact closed.nothing context

theorem Closed.literal (closed : Closed good) (position : Position) (kind : LiteralKind) (raw : String)
    (context : EmitContext) : good context.nextConstant (emitLiteral position kind raw context) := by
  cases kind with
  | string => exact closed.constant rfl rfl context
  | boolean => exact closed.constant rfl rfl context
  | number =>
      simp only [emitLiteral]
      split
      · exact closed.constant rfl rfl context
      · exact closed.fault _ _

mutual

theorem Closed.emit (closed : Closed good) : (node : Node) → (context : EmitContext) →
    good context.nextConstant (emit node context)
  | .program _ items, context => by
      rw [PredicateLang.emit]
      exact closed.emitAll items context
  | .primitive _ inner, context => by
      rw [PredicateLang.emit]
      exact closed.emit inner context
  | .literal position kind raw, context => by
      rw [PredicateLang.emit]
      exact closed.literal position kind raw context
  | .identifier _ name, context => by
      rw [PredicateLang.emit]
      exact closed.identifier name context
  | .arith _ op left right, context => by
      rw [PredicateLang.emit]
      -- Clearing the kind leaves the count of the constants alone.
      exact closed.andThen (closed.emit left context) fun before _ =>
        closed.andThen (closed.emit right before.cleared) fun after _ =>
          closed.opcode (arithmeticOpcode_alone op _ _) after.cleared
  | .compare _ _ op left right, context => by
      rw [PredicateLang.emit]
      exact closed.andThen (closed.andThen (closed.emit left context) fun before _ =>
        closed.emit right before) fun after _ => closed.opcode rfl after
  | .logical _ op left right, context => by
      rw [PredicateLang.emit]
      exact closed.andThen (closed.andThen (closed.emit left context) fun before _ =>
        closed.emit right before) fun after _ => closed.opcode (connectiveOpcode_alone op) after

theorem Closed.emitAll (closed : Closed good) : (items : List Node) → (context : EmitContext) →
    good context.nextConstant (emitAll items context)
  | [], context => by
      rw [PredicateLang.emitAll]
      exact closed.nothing context
  | node :: rest, context => by
      rw [PredicateLang.emitAll]
      exact closed.andThen (closed.emit node context) fun middle _ => closed.emitAll rest middle

end

variable {first : Emitted} {next : EmitContext → Emitted}

structure LaidOut (start : UInt32) (e : Emitted) : Prop where
  whole : Whole e.words
  passes : ∀ p : Program, Hosts p.constants start e.pool → p.Passes e.words
  counted : ∀ after, e.outcome = .ok after →
    after.nextConstant = start + .ofNat e.pool.length

theorem laidOut_nothing (context : EmitContext) :
    (nothing context).LaidOut context.nextConstant where
  whole := .nil
  passes p _ := .nil p
  counted after done := by
    cases done
    simp

theorem laidOut_opcode {op : Opcode} (alone : op.hasOperand = false) (context : EmitContext) :
    (opcode op context).LaidOut context.nextConstant where
  whole := .operation alone
  passes p _ := .operation p alone
  counted after done := by
    cases done
    simp

theorem laidOut_constant {op : Opcode} {v : Value} (followed : op.hasOperand = true)
    (suits : Program.accepts op v.kind = true) (context : EmitContext) :
    (constant op v context).LaidOut context.nextConstant where
  whole := .reference followed _
  passes p hosted := .reference followed hosted.get suits
  counted after done := by
    cases done
    simp

theorem LaidOut.andThen {start : UInt32} (one : first.LaidOut start)
    (two : ∀ middle, first.outcome = .ok middle → (next middle).LaidOut middle.nextConstant) :
    (first.andThen next).LaidOut start := by
  cases done : first.outcome with
  | error fault =>
      -- Nothing is counted behind a fault.
      rw [andThen_of_error done]
      exact ⟨one.whole, one.passes, fun after ends => by cases ends⟩
  | ok middle =>
      have place := one.counted middle done
      have more := two middle done
      constructor
      · rw [words_andThen done]
        exact one.whole.append more.whole
      · intro p hosted
        rw [pool_andThen done] at hosted
        rw [words_andThen done]
        exact (one.passes p hosted.left).append one.whole (more.passes p (place ▸ hosted.right))
      · intro after ends
        rw [outcome_andThen done] at ends
        rw [more.counted after ends, place, pool_andThen done, List.length_append,
          UInt32.ofNat_add, UInt32.add_assoc]

theorem closed_laidOut : Closed LaidOut where
  nothing := laidOut_nothing
  opcode := laidOut_opcode
  constant := laidOut_constant
  fault _ _ := ⟨.nil, fun p _ => .nil p, fun after ends => by cases ends⟩
  andThen := LaidOut.andThen

end Emitted

theorem laidOut_emit (node : Node) (context : EmitContext) :
    (emit node context).LaidOut context.nextConstant :=
  closed_laidOut.emit node context

theorem laidOut_emitAll (items : List Node) (context : EmitContext) :
    (emitAll items context).LaidOut context.nextConstant :=
  closed_laidOut.emitAll items context

def constantCount (root : Node) : Nat := (assemble (emit root .start).items).constants.length

theorem validate_assembled {root : Node} (few : constantCount root < UInt32.size) :
    (assemble (emit root .start).items).validate = .ok () :=
  (laidOut_emit root .start).passes (assemble (emit root .start).items) (Hosts.whole few) 0

theorem compile_of_outcome {root : Node} {after : EmitContext}
    (done : (emit root .start).outcome = .ok after) (few : constantCount root < UInt32.size)
    (validate : Bool) :
    compile validate root = .ok (assemble (emit root .start).items) := by
  simp only [compile, done, validate_assembled few]
  cases validate <;> rfl

end PredicateLang
