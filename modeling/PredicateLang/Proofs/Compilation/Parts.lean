import PredicateLang.Proofs.Compilation.Layout
import PredicateLang.Proofs.Syntax.Shapes

set_option autoImplicit false

namespace PredicateLang

open Emitted

namespace Node

/-- What an operator keeps of a context behind an operand: arithmetic forgets the kind. -/
def keeps (node : Node) (context : EmitContext) : EmitContext :=
  match node with
  | .arith _ _ _ _ => context.cleared
  | _ => context

def opcode (node : Node) (left right : Option ValueKind) : Opcode :=
  match node with
  | .compare _ _ op _ _ => .compare op
  | .arith _ op _ _ => arithmeticOpcode op left right
  | .logical _ op _ _ => connectiveOpcode op
  | _ => .nop

@[simp] theorem nextConstant_keeps (node : Node) (context : EmitContext) :
    (node.keeps context).nextConstant = context.nextConstant := by
  cases node <;> rfl

theorem opcode_alone (node : Node) (left right : Option ValueKind) :
    (node.opcode left right).hasOperand = false := by
  cases node with
  | arith position op => exact arithmeticOpcode_alone op left right
  | logical position op => exact connectiveOpcode_alone op
  | _ => rfl

end Node

theorem Emitted.andThen_assoc (first : Emitted) (next last : EmitContext → Emitted) :
    (first.andThen next).andThen last = first.andThen fun context => (next context).andThen last := by
  cases done : first.outcome with
  | error fault => simp [andThen, done]
  | ok context =>
      cases ended : (next context).outcome <;> simp [andThen, done, ended]

theorem emit_operator {node left right : Node} (operands : node.operands? = some (left, right))
    (context : EmitContext) :
    emit node context = (emit left context).andThen fun before =>
      (emit right (node.keeps before)).andThen fun after =>
        .opcode (node.opcode before.lastKind after.lastKind) (node.keeps after) := by
  cases node with
  | compare | logical =>
      cases operands
      rw [emit, andThen_assoc]
      rfl
  | arith =>
      cases operands
      rw [emit]
      rfl
  | _ => cases operands

theorem emitAll_append (front rest : List Node) (context : EmitContext) :
    emitAll (front ++ rest) context = (emitAll front context).andThen (emitAll rest) := by
  induction front generalizing context with
  | nil => rfl
  | cons node front ih =>
      rw [List.cons_append, emitAll, emitAll, andThen_assoc]
      exact congrArg (andThen _) (funext ih)

/-- An operand of a node, the context that it finds and what is emitted before it for the node. -/
inductive Node.Side (node : Node) (context : EmitContext) : Node → EmitContext → List Emission → Prop
  | left {left right : Node} (operands : node.operands? = some (left, right)) :
      Side node context left context []
  | right {left right : Node} {before : EmitContext} (operands : node.operands? = some (left, right))
      (done : (emit left context).outcome = .ok before) :
      Side node context right (node.keeps before) (emit left context).items

/-- A part of a compiled tree, the context that it finds and what is emitted before it. -/
inductive Part (root : Node) : Node → EmitContext → List Emission → Prop
  | whole : Part root root .start []
  | item {position : Position} {front rest : List Node} {node : Node} {context middle : EmitContext}
      {before : List Emission}
      (part : Part root (.program position (front ++ node :: rest)) context before)
      (done : (emitAll front context).outcome = .ok middle) :
      Part root node middle (before ++ (emitAll front context).items)
  | inner {position : Position} {node : Node} {context : EmitContext} {before : List Emission}
      (part : Part root (.primitive position node) context before) : Part root node context before
  | operand {node operand : Node} {context place : EmitContext} {before inside : List Emission}
      (part : Part root node context before) (side : node.Side context operand place inside) :
      Part root operand place (before ++ inside)

structure Emitted.Holds (outer : Emitted) (start : UInt32) (before : List Emission) (inner : Emitted)
    (place : UInt32) : Prop where
  whole : Whole (before.filterMap Emission.word?)
  counted : place = start + .ofNat (before.filterMap Emission.constant?).length
  split : ∃ behind, outer.items = before ++ (inner.items ++ behind)

namespace Emitted

variable {outer first : Emitted} {next : EmitContext → Emitted} {start place : UInt32}

theorem Holds.here (e : Emitted) (start : UInt32) : e.Holds start [] e start where
  whole := .nil
  counted := by simp
  split := ⟨[], by simp⟩

theorem Holds.trans {middle inner : Emitted} {last : UInt32} {before inside : List Emission}
    (one : outer.Holds start before middle place) (two : middle.Holds place inside inner last) :
    outer.Holds start (before ++ inside) inner last where
  whole := by
    rw [List.filterMap_append]
    exact one.whole.append two.whole
  counted := by
    rw [two.counted, one.counted, List.filterMap_append, List.length_append, UInt32.ofNat_add,
      UInt32.add_assoc]
  split := by
    obtain ⟨behind, front⟩ := one.split
    obtain ⟨rest, inner⟩ := two.split
    exact ⟨rest ++ behind, by simp [front, inner]⟩

theorem holds_first (first : Emitted) (next : EmitContext → Emitted) (start : UInt32) :
    (first.andThen next).Holds start [] first start where
  whole := .nil
  counted := by simp
  split := by
    cases done : first.outcome with
    | error fault => exact ⟨[], by simp [andThen, done]⟩
    | ok context => exact ⟨(next context).items, by simp [andThen, done]⟩

theorem holds_next {middle : EmitContext} (laidOut : first.LaidOut start)
    (done : first.outcome = .ok middle) (next : EmitContext → Emitted) :
    (first.andThen next).Holds start first.items (next middle) middle.nextConstant where
  whole := laidOut.whole
  counted := laidOut.counted middle done
  split := ⟨[], by simp [andThen, done]⟩

end Emitted

theorem Node.Side.holds {node operand : Node} {context place : EmitContext}
    {inside : List Emission} (side : node.Side context operand place inside) :
    (emit node context).Holds context.nextConstant inside (emit operand place)
      place.nextConstant := by
  cases side with
  | left operands =>
      rw [emit_operator operands]
      exact holds_first _ _ _
  | right operands done =>
      rw [emit_operator operands]
      have behind := holds_next (laidOut_emit _ context) done fun before =>
        (emit operand (node.keeps before)).andThen fun after =>
          .opcode (node.opcode before.lastKind after.lastKind) (node.keeps after)
      have front := behind.trans (holds_first _ _ _)
      simpa using front

theorem Part.holds {root node : Node} {context : EmitContext} {before : List Emission}
    (part : Part root node context before) :
    (emit root .start).Holds 0 before (emit node context) context.nextConstant := by
  induction part with
  | whole => exact .here _ _
  | @item position front rest node context middle before part done ih =>
      refine ih.trans ?_
      rw [emit, emitAll_append]
      have behind := holds_next (laidOut_emitAll front context) done (emitAll (node :: rest))
      rw [emitAll] at behind
      simpa using behind.trans (holds_first _ _ _)
  | inner part ih =>
      rw [emit] at ih
      exact ih
  | operand part side ih => exact ih.trans side.holds

inductive Node.Fits : Node → Prop
  | program {position : Position} {items : List Node} (all : ∀ node ∈ items, node.Sound) :
      Fits (.program position items)
  | expression {node : Node} (sound : node.Sound) : Fits node
  | leaf {node : Node} (childless : node.children = []) : Fits node

theorem Node.Fits.sound {node left right : Node} (fits : node.Fits)
    (operands : node.operands? = some (left, right)) : node.Sound := by
  cases fits with
  | program all => cases operands
  | expression sound => exact sound
  | leaf childless =>
      cases node with
      | compare | arith | logical => cases childless
      | _ => cases operands

theorem Node.Side.sound {node operand : Node} {context place : EmitContext}
    {inside : List Emission} (side : node.Side context operand place inside) (fits : node.Fits) :
    operand.Sound := by
  cases side with
  | left operands => exact ((fits.sound operands).operand operands).1
  | right operands done => exact ((fits.sound operands).operand operands).2.1

theorem Part.fits {root node : Node} {context : EmitContext} {before : List Emission}
    (part : Part root node context before) (whole : root.Fits) : node.Fits := by
  induction part with
  | whole => exact whole
  | item part done ih =>
      cases ih with
      | program all => exact .expression (all _ (by simp))
      | expression sound =>
          cases sound with
          | operator operands => cases operands
      | leaf childless => simp [Node.children] at childless
  | inner part ih =>
      cases ih with
      | expression sound =>
          cases sound with
          | name | literal => exact .leaf rfl
          | operator operands => cases operands
      | leaf childless => cases childless
  | operand part side ih => exact .expression (side.sound ih)

theorem fits_of_parse {keywordBoundary : Bool} {source : String} {root : Node}
    (parsed : parse (Scanner.ofString keywordBoundary source) = .ok root) : root.Fits := by
  rcases shape_of_parse parsed with rfl | ⟨node, rfl, sound⟩
  · exact .program nofun
  · exact .program (by simpa using sound)

theorem compile_ok {validate : Bool} {root : Node} {program : Program}
    (h : compile validate root = .ok program) : program = assemble (emit root .start).items := by
  simp only [compile] at h
  split at h
  · cases h
  · split at h
    · split at h
      · cases h
      · cases h
        rfl
    · cases h
      rfl

theorem Part.expression (position : Position) (node : Node) :
    Part (.program position [node]) node .start [] :=
  @Part.item _ position [] [] node .start .start [] .whole rfl

theorem Part.words {root node : Node} {context : EmitContext} {before : List Emission}
    (part : Part root node context before) {validate : Bool} {program : Program}
    (compiled : compile validate root = .ok program) :
    ∃ behind, program.words =
      before.filterMap Emission.word? ++ ((emit node context).words ++ behind) := by
  obtain ⟨behind, split⟩ := part.holds.split
  refine ⟨behind.filterMap Emission.word?, ?_⟩
  rw [compile_ok compiled, assemble, split, List.filterMap_append, List.filterMap_append]
  rfl

end PredicateLang
