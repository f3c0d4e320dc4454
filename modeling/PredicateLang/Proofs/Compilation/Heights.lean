import PredicateLang.Proofs.Compilation.Isolation
import PredicateLang.Proofs.Compilation.Stages
import PredicateLang.Proofs.Machine.Heights
import PredicateLang.Proofs.Syntax.Names

set_option autoImplicit false

namespace PredicateLang

open Emitted

def Opcode.emitted : Opcode → Bool
  | .getStatic | .getAttr | .load _ | .concat | .compare _ => true
  | .int operation => !operation.divides
  | .double operation => operation ≠ .mod
  | .nop | .invoke | .convert _ => false

theorem Opcode.divides_emitted {op : Opcode} (emitted : op.emitted = true) (divides : op.divides = true) :
    op = .double .div := by
  cases op with
  | int operation => simp_all [Opcode.emitted, Opcode.divides]
  | double operation =>
      cases operation with
      | div => rfl
      | mod => cases emitted
      | _ => cases divides
  | _ => cases divides

theorem Opcode.emitted_of_operates {op : Opcode} (operates : op.operates = true) : op.emitted = true := by
  cases op with
  | int operation => cases operation <;> first | rfl | cases operates
  | double operation => exact operates
  | concat | compare => rfl
  | _ => cases operates

def Value.Among (names : List Identifier) : Value → Prop
  | .dataRef base scope => scope = .static ∧ ∃ name ∈ names, name.external = true ∧ name.base = base
  | .attrRef key _ => ∃ name ∈ names, name.external = true ∧ key ∈ name.path
  | _ => True

theorem Value.Among.mono {names more : List Identifier} {v : Value} (among : v.Among names)
    (le : ∀ name ∈ names, name ∈ more) : v.Among more := by
  cases v with
  | dataRef base scope =>
      obtain ⟨static, name, present, rest⟩ := among
      exact ⟨static, name, le name present, rest⟩
  | attrRef key owner =>
      obtain ⟨name, present, rest⟩ := among
      exact ⟨name, le name present, rest⟩
  | _ => trivial

theorem among_path {name : Identifier} (outside : name.external = true) {path : List String}
    (part : ∀ key ∈ path, key ∈ name.path) (context : EmitContext) :
    ∀ v ∈ (emitPath path context).pool, v.Among [name] := by
  induction path generalizing context with
  | nil => exact List.forall_mem_nil _
  | cons key rest ih =>
      rw [emitPath, pool_andThen rfl, pool_constant]
      intro v present
      rcases List.mem_cons.mp present with rfl | later
      · exact ⟨name, List.mem_singleton_self name, outside, part key List.mem_cons_self⟩
      · exact ih (fun key later => part key (List.mem_cons_of_mem _ later)) _ v later

theorem among_literal {kind : LiteralKind} {raw : String} {v : Value}
    (known : Term.literalOf? kind raw = some v) (names : List Identifier) : v.Among names := by
  cases kind with
  | string | boolean =>
      cases known
      trivial
  | number =>
      obtain ⟨x, -, rfl⟩ := Option.map_eq_some_iff.mp known
      trivial

theorem among_emit {node : Node} (sound : node.Sound) (context : EmitContext) :
    ∀ v ∈ (emit node context).pool, v.Among node.names := by
  induction sound generalizing context with
  | name name =>
      rw [emit, emit, emitIdentifier]
      split
      · rename_i outside
        rw [pool_andThen rfl, pool_constant]
        intro v present
        rcases List.mem_cons.mp present with rfl | later
        · exact ⟨rfl, name, List.mem_singleton_self name, outside, rfl⟩
        · exact among_path outside (fun _ inside => inside) _ v later
      · exact List.forall_mem_nil _
  | literal known =>
      obtain ⟨load, -, same⟩ := outcome_literal known _ context
      rw [emit, emit, same, pool_constant]
      intro v present
      obtain rfl := List.mem_singleton.mp present
      exact among_literal known _
  | @operator node left right operands one two _ ihLeft ihRight =>
      obtain ⟨place, -, -, -, -, pool⟩ := parts_operator operands one two context
      rw [pool, Node.names_operator operands]
      intro v present
      rcases List.mem_append.mp present with front | behind
      · exact (ihLeft context v front).mono fun _ => List.mem_append_left _
      · exact (ihRight place v behind).mono fun _ => List.mem_append_right _

def Spans (constants : List Value) (start : UInt32) (own : List Value) : Prop :=
  ∃ before behind, start = .ofNat before.length ∧ constants = before ++ own ++ behind

namespace Spans

variable {constants : List Value} {start : UInt32}

theorem whole (own : List Value) : Spans own 0 own := ⟨[], [], rfl, by simp⟩

theorem left {first second : List Value} (h : Spans constants start (first ++ second)) :
    Spans constants start first := by
  obtain ⟨before, behind, place, rfl⟩ := h
  exact ⟨before, second ++ behind, place, by simp⟩

theorem right {first second : List Value} (h : Spans constants start (first ++ second)) :
    Spans constants (start + .ofNat first.length) second := by
  obtain ⟨before, behind, rfl, rfl⟩ := h
  exact ⟨before ++ first, behind, by rw [List.length_append, UInt32.ofNat_add], by simp⟩

theorem held {v : Value} (h : Spans constants start [v]) :
    ∃ constant, constants[start.toNat]? = some constant := by
  obtain ⟨before, behind, rfl, rfl⟩ := h
  have low : (UInt32.ofNat before.length).toNat ≤ before.length := by
    rw [UInt32.toNat_ofNat']
    exact Nat.mod_le _ _
  refine ⟨_, List.getElem?_eq_getElem ?_⟩
  simp only [List.length_append, List.length_singleton]
  omega

end Spans

/-- What the instructions of an expression find on the stack, from a height on. -/
structure Node.Heights (node : Node) (height : Nat) (visits : List Visit) (last : Nat) : Prop where
  emitted : ∀ visit ∈ visits, visit.opcode.emitted = true
  low : ∀ visit ∈ visits, visit.height ≤ height + node.depth ∧
    visit.opcode.leaves visit.height ≤ height + node.depth
  top : last ≤ height + 1
  filled : node.isPlain = false → 1 ≤ last
  -- Names of the host have values, so no operand is missing.
  supplied : (∀ name ∈ node.names, name.external = true) →
    last = height + 1 ∧ ∀ visit ∈ visits, visit.opcode.needs ≤ visit.height

theorem Node.depth_pos (node : Node) : 1 ≤ node.depth := by
  induction node using Node.depth.induct with
  | case1 | case2 | case3 => rw [depth]; omega
  | case4 node noCompare noArith noLogical => rw [depth] <;> simp_all

section

variable {constants : List Value}

theorem passage_path {path : List String} (context : EmitContext) (height : Nat)
    (spans : Spans constants context.nextConstant (emitPath path context).pool) :
    ∃ visits, Passage constants height (emitPath path context).words visits height ∧
      ∀ visit ∈ visits, visit.opcode = .getAttr ∧ visit.height = height := by
  induction path generalizing context with
  | nil => exact ⟨[], .nil, List.forall_mem_nil _⟩
  | cons key rest ih =>
      rw [emitPath, pool_andThen rfl, pool_constant] at spans
      rw [emitPath, words_andThen rfl, words_constant]
      obtain ⟨constant, held⟩ := spans.left.held
      obtain ⟨visits, passage, attributes⟩ := ih ⟨context.nextConstant + 1, some .attrRef⟩ spans.right
      have first : Passage constants height [Opcode.getAttr.word, context.nextConstant]
          [⟨.getAttr, some constant, height⟩] height := .reference rfl held height
      exact ⟨_, first.append passage, List.forall_mem_cons.mpr ⟨⟨rfl, rfl⟩, attributes⟩⟩

theorem heights_identifier (position place : Position) (name : Identifier) {context : EmitContext}
    {height : Nat}
    (spans : Spans constants context.nextConstant (emitIdentifier name context).pool) :
    ∃ visits last, Passage constants height (emitIdentifier name context).words visits last ∧
      (Node.primitive position (.identifier place name)).Heights height visits last := by
  rw [emitIdentifier] at spans ⊢
  cases outside : name.external with
  | false =>
      simp only [outside, Bool.false_eq_true, if_false] at spans ⊢
      refine ⟨[], height, .nil, List.forall_mem_nil _, List.forall_mem_nil _, Nat.le_succ height, ?_, ?_⟩
      · simp [Node.isPlain, outside]
      · intro supplied
        exact absurd (supplied name (List.mem_singleton_self name)) (by simp [outside])
  | true =>
      simp only [outside, if_true] at spans ⊢
      rw [pool_andThen rfl, pool_constant] at spans
      rw [words_andThen rfl, words_constant]
      obtain ⟨constant, held⟩ := spans.left.held
      obtain ⟨visits, passage, attributes⟩ :=
        passage_path ⟨context.nextConstant + 1, some .dataRef⟩ (height + 1) spans.right
      have first : Passage constants height [Opcode.getStatic.word, context.nextConstant]
          [⟨.getStatic, some constant, height⟩] (height + 1) := .reference rfl held height
      refine ⟨_, _, first.append passage, ?_⟩
      refine ⟨?_, ?_, Nat.le_refl _, fun _ => Nat.le_add_left 1 height, fun _ => ⟨rfl, ?_⟩⟩
      · refine List.forall_mem_cons.mpr ⟨rfl, fun visit among => ?_⟩
        rw [(attributes visit among).1]
        rfl
      · refine List.forall_mem_cons.mpr ⟨⟨Nat.le_add_right _ _, Nat.le_refl _⟩, fun visit among => ?_⟩
        rw [(attributes visit among).1, (attributes visit among).2]
        exact ⟨Nat.le_refl _, Nat.le_refl _⟩
      · refine List.forall_mem_cons.mpr ⟨Nat.zero_le _, fun visit among => ?_⟩
        rw [(attributes visit among).1, (attributes visit among).2]
        exact Nat.le_add_left 1 height

theorem heights_literal {kind : LiteralKind} {raw : String} {v : Value}
    (known : Term.literalOf? kind raw = some v) (position place : Position) {context : EmitContext}
    {height : Nat}
    (spans : Spans constants context.nextConstant (emitLiteral place kind raw context).pool) :
    ∃ visits last, Passage constants height (emitLiteral place kind raw context).words visits last ∧
      (Node.primitive position (.literal place kind raw)).Heights height visits last := by
  obtain ⟨load, -, same⟩ := outcome_literal known place context
  rw [same, pool_constant] at spans
  rw [same, words_constant]
  obtain ⟨constant, held⟩ := spans.held
  have passage : Passage constants height [(Opcode.load load).word, context.nextConstant]
      [⟨.load load, some constant, height⟩] (height + 1) := .reference rfl held height
  refine ⟨_, _, passage, ?_⟩
  exact ⟨List.forall_mem_singleton.mpr rfl,
    List.forall_mem_singleton.mpr ⟨Nat.le_add_right _ _, Nat.le_refl _⟩, Nat.le_refl _,
    fun _ => Nat.le_add_left 1 height, fun _ => ⟨rfl, List.forall_mem_singleton.mpr (Nat.zero_le _)⟩⟩

theorem Node.Heights.operator {node left right : Node}
    (operands : node.operands? = some (left, right)) {op : Opcode} (combines : op.combines = true)
    (emitted : op.emitted = true) {height middle last : Nat} {front behind : List Visit}
    (one : left.Heights height front middle) (two : right.Heights middle behind last) :
    node.Heights height (front ++ (behind ++ [⟨op, none, last⟩])) (op.leaves last) := by
  obtain ⟨leaves, needs⟩ := Opcode.leaves_combines combines last
  have depth := Node.depth_operator operands
  have pending := right.depth_pos
  have topOne := one.top
  have topTwo := two.top
  constructor
  · intro visit among
    simp only [List.mem_append, List.mem_singleton] at among
    rcases among with among | among | rfl
    · exact one.emitted visit among
    · exact two.emitted visit among
    · exact emitted
  · intro visit among
    simp only [List.mem_append, List.mem_singleton] at among
    rcases among with among | among | rfl
    · have low := one.low visit among
      omega
    · have low := two.low visit among
      omega
    · simp only [leaves]
      omega
  · omega
  · omega
  · intro supplied
    rw [Node.names_operator operands, List.forall_mem_append] at supplied
    obtain ⟨fullOne, enoughOne⟩ := one.supplied supplied.1
    obtain ⟨fullTwo, enoughTwo⟩ := two.supplied supplied.2
    refine ⟨by omega, fun visit among => ?_⟩
    simp only [List.mem_append, List.mem_singleton] at among
    rcases among with among | among | rfl
    · exact enoughOne visit among
    · exact enoughTwo visit among
    · simp only
      omega

theorem heights_emit {node : Node} (sound : node.Sound) (context : EmitContext) (height : Nat)
    (spans : Spans constants context.nextConstant (emit node context).pool) :
    ∃ visits last, Passage constants height (emit node context).words visits last ∧
      node.Heights height visits last := by
  induction sound generalizing context height with
  | name name =>
      rw [emit, emit] at spans ⊢
      exact heights_identifier _ _ name spans
  | literal known =>
      rw [emit, emit] at spans ⊢
      exact heights_literal known _ _ spans
  | @operator node left right operands one two _ ihLeft ihRight =>
      obtain ⟨place, kind, kind', counted, words, pool⟩ := parts_operator operands one two context
      rw [pool] at spans
      obtain ⟨front, middle, passLeft, heightsLeft⟩ := ihLeft context height spans.left
      obtain ⟨behind, last, passRight, heightsRight⟩ := ihRight place middle (counted ▸ spans.right)
      have operates := Node.opcode_operates operands kind kind'
      have operation : Passage constants last [(node.opcode kind kind').word]
          [⟨node.opcode kind kind', none, last⟩] ((node.opcode kind kind').leaves last) :=
        .operation (node.opcode_alone kind kind') last
      rw [words]
      exact ⟨_, _, passLeft.append (passRight.append operation),
        heightsLeft.operator operands (Opcode.combines_of_operates operates)
          (Opcode.emitted_of_operates operates) heightsRight⟩

end

structure Program.Climbs (program : Program) (node : Node) (visits : List Visit) (last : Nat) : Prop where
  passage : Passage program.constants 0 program.words visits last
  heights : node.Heights 0 visits last
  among : ∀ v ∈ program.constants, v.Among node.names

theorem climbs_compiled {node : Node} (sound : node.Sound) {position : Position} {validate : Bool}
    {program : Program} (compiled : compile validate (.program position [node]) = .ok program) :
    ∃ visits last, program.Climbs node visits last := by
  obtain ⟨after, done, -⟩ := lastKind_emit sound .start
  obtain rfl := compile_ok compiled
  have words : (assemble (emit (.program position [node]) .start).items).words =
      (emit node .start).words := words_root position done
  have constants : (assemble (emit (.program position [node]) .start).items).constants =
      (emit node .start).pool := pool_root position done
  obtain ⟨visits, last, passage, heights⟩ := heights_emit sound .start 0 (Spans.whole _)
  refine ⟨visits, last, ?_, heights, ?_⟩
  · rw [words, constants]
    exact passage
  · rw [constants]
    exact among_emit sound .start

theorem compiled_of_source {options : EngineOptions} {source : String} {program : Program}
    (compiled : options.compile source = .ok program) :
    (program = .empty ∧ ∀ c ∈ source.toList, isBlank c = true) ∨
      ∃ node visits last, options.parse source = .ok (.program .start [node]) ∧ node.Parsed ∧
        program.Climbs node visits last := by
  obtain ⟨root, parsed, built⟩ := EngineOptions.compile_ok.mp compiled
  rcases expression_of_parse (EngineOptions.parse_ok.mp parsed) with ⟨rfl, blank⟩ | ⟨node, rfl, expression⟩
  · exact .inl ⟨compile_ok built, blank⟩
  · obtain ⟨visits, last, climbs⟩ := climbs_compiled expression.sound built
    exact .inr ⟨node, visits, last, parsed, expression, climbs⟩

end PredicateLang
