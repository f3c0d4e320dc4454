import PredicateLang.Proofs.Compilation.Stages
import PredicateLang.Proofs.Compilation.Totality
import PredicateLang.Proofs.Syntax.Spacing

set_option autoImplicit false

namespace PredicateLang

def CompileFault.bare : CompileFault → CompileFault
  | .invalidNumber _ raw => .invalidNumber Position.start raw
  | .invalidProgram fault => .invalidProgram fault

namespace Emitted

def bare (e : Emitted) : Emitted := ⟨e.items, e.outcome.mapError CompileFault.bare⟩

theorem bare_andThen (first : Emitted) (next : EmitContext → Emitted) :
    (first.andThen next).bare = first.bare.andThen fun context => (next context).bare := by
  cases ended : first.outcome with
  | error fault => simp [bare, andThen, ended, Except.mapError]
  | ok context => simp [bare, andThen, ended, Except.mapError]

@[simp] theorem bare_constant (op : Opcode) (v : Value) (context : EmitContext) :
    (constant op v context).bare = constant op v context := rfl

end Emitted

open Emitted

theorem bare_path (path : List String) (context : EmitContext) :
    (emitPath path context).bare = emitPath path context := by
  induction path generalizing context with
  | nil => rfl
  | cons key rest ih =>
      rw [emitPath, bare_andThen, bare_constant]
      exact congrArg _ (funext ih)

theorem bare_identifier (name : Identifier) (context : EmitContext) :
    (emitIdentifier name context).bare = emitIdentifier name context := by
  rw [emitIdentifier]
  split
  · rw [bare_andThen, bare_constant]
    exact congrArg _ (funext (bare_path name.path))
  · rfl

theorem bare_literal (position : Position) (kind : LiteralKind) (raw : String) (context : EmitContext) :
    emitLiteral Position.start kind raw context = (emitLiteral position kind raw context).bare := by
  cases kind with
  | string | boolean => rfl
  | number => cases read : Double.read? raw <;> simp only [emitLiteral, read] <;> rfl

mutual

theorem emit_bare : (node : Node) → (context : EmitContext) →
    emit node.bare context = (emit node context).bare
  | .program _ items, context => by
      rw [Node.bare, emit, emit]
      exact emitAll_bareAll items context
  | .primitive _ inner, context => by
      rw [Node.bare, emit, emit]
      exact emit_bare inner context
  | .literal position kind raw, context => by
      rw [Node.bare, emit, emit]
      exact bare_literal position kind raw context
  | .identifier _ name, context => by
      rw [Node.bare, emit, emit]
      exact (bare_identifier name context).symm
  | .compare _ _ op left right, context => by
      rw [Node.bare, emit, emit, bare_andThen, bare_andThen, emit_bare left, funext (emit_bare right)]
      rfl
  | .arith _ op left right, context => by
      rw [Node.bare, emit, emit, bare_andThen, emit_bare left]
      refine congrArg _ (funext fun before => ?_)
      rw [bare_andThen, emit_bare right]
      rfl
  | .logical _ op left right, context => by
      rw [Node.bare, emit, emit, bare_andThen, bare_andThen, emit_bare left, funext (emit_bare right)]
      rfl

theorem emitAll_bareAll : (items : List Node) → (context : EmitContext) →
    emitAll (Node.bareAll items) context = (emitAll items context).bare
  | [], context => by
      rw [Node.bareAll, emitAll]
      rfl
  | node :: rest, context => by
      rw [Node.bareAll, emitAll, emitAll, bare_andThen, emit_bare node, funext (emitAll_bareAll rest)]

end

theorem emit_bare_of_readable {node : Node} (readable : unreadable? node.numbers = none)
    (context : EmitContext) : emit node.bare context = emit node context := by
  obtain ⟨after, ended⟩ := endsBy_emit node context
  rw [readable] at ended
  rw [emit_bare, Emitted.bare, ended]
  exact congrArg (Emitted.mk _) ended.symm

theorem compile_bare {root : Node} (readable : unreadable? root.numbers = none) (validate : Bool) :
    compile validate root.bare = compile validate root := by
  simp only [compile, emit_bare_of_readable readable]

/-- Two texts that parse and agree but for their blanks have the same tree up to positions. They compile to
the same program, and the host gets the same value or the same fault from both. -/
theorem spacing_is_irrelevant {ω : Type} (engine : Engine ω) {source source' : String} {root root' : Node}
    {tokens tokens' : List Token} (parsed : engine.options.parse source = .ok root)
    (parsed' : engine.options.parse source' = .ok root')
    (scanned : engine.options.tokenize source = .ok tokens)
    (scanned' : engine.options.tokenize source' = .ok tokens')
    (same : visible tokens = visible tokens') :
    root.bare = root'.bare ∧
      (∃ program, compile false root = .ok program ∧ compile false root' = .ok program) ∧
      engine.options.compile source = engine.options.compile source' ∧
      ∀ world, engine.eval source world = engine.eval source' world := by
  have parsed₁ := EngineOptions.parse_ok.mp parsed
  have parsed₂ := EngineOptions.parse_ok.mp parsed'
  have alike := bare_eq_of_visible parsed₁ parsed₂ (mapError_ok.mp scanned) (mapError_ok.mp scanned') same
  have together (validate : Bool) : compile validate root = compile validate root' := by
    rw [← compile_bare (readable_of_parse parsed₁), alike, compile_bare (readable_of_parse parsed₂)]
  have built : compile false root = .ok (assemble (emit root .start).items) := by
    rw [compile_unvalidated, readable_of_parse parsed₁]
    rfl
  have compiled : engine.options.compile source = engine.options.compile source' := by
    simp only [EngineOptions.compile, parsed, parsed', bind, Except.bind, together]
  refine ⟨alike, ⟨_, built, (together false).symm.trans built⟩, compiled, fun world => ?_⟩
  simp only [Engine.eval, compiled]

-- The derivation of `@a.b<1`, and that of the same tokens on two lines.
def onOneLine : Grammar.Program :=
  let left : Grammar.Leaf :=
    .external ⟨.atSign, .start, "@"⟩ ⟨.identifier, ⟨1, 1, 1⟩, "a"⟩
      [⟨⟨.dot, ⟨1, 2, 2⟩, "."⟩, [], ⟨.identifier, ⟨1, 3, 3⟩, "b"⟩, rfl, .nil, rfl⟩] rfl rfl
  let right : Grammar.Leaf := .number ⟨.number, ⟨1, 5, 5⟩, "1"⟩ rfl
  let less : Grammar.Behind Grammar.OrderOperator Grammar.sum :=
    ⟨[], ⟨.comparisonOp, ⟨1, 4, 4⟩, "<"⟩, [], _, (((right, none), none), []), .nil, .lt rfl rfl, .nil⟩
  .expression [] (((((((left, none), none), []), some less), none), none), none) []
    ⟨.eof, ⟨1, 6, 6⟩, ""⟩ .nil .nil rfl

def onTwoLines : Grammar.Program :=
  let left : Grammar.Leaf :=
    .external ⟨.atSign, .start, "@"⟩ ⟨.identifier, ⟨1, 1, 1⟩, "a"⟩
      [⟨⟨.dot, ⟨1, 2, 2⟩, "."⟩, [⟨.whitespace, ⟨1, 3, 3⟩, " "⟩], ⟨.identifier, ⟨1, 4, 4⟩, "b"⟩, rfl,
        .single rfl, rfl⟩] rfl rfl
  let right : Grammar.Leaf := .number ⟨.number, ⟨2, 0, 7⟩, "1"⟩ rfl
  let less : Grammar.Behind Grammar.OrderOperator Grammar.sum :=
    ⟨[], ⟨.comparisonOp, ⟨1, 5, 5⟩, "<"⟩, [⟨.whitespace, ⟨1, 6, 6⟩, "\n"⟩], _,
      (((right, none), none), []), .nil, .lt rfl rfl, .single rfl⟩
  .expression [] (((((((left, none), none), []), some less), none), none), none) []
    ⟨.eof, ⟨2, 1, 8⟩, ""⟩ .nil .nil rfl

theorem comparison_on_two_lines :
    let engine : Engine Unit := .ofOptions .default
    engine.options.parse "@a.b<1" = .ok onOneLine.tree ∧
      engine.options.parse "@a. b<\n1" = .ok onTwoLines.tree ∧
      engine.options.tokenize "@a.b<1" = .ok onOneLine.tokens ∧
      engine.options.tokenize "@a. b<\n1" = .ok onTwoLines.tokens ∧
      visible onOneLine.tokens = visible onTwoLines.tokens ∧
      onOneLine.tree.bare = onTwoLines.tree.bare ∧
      (∃ program, compile false onOneLine.tree = .ok program ∧
        compile false onTwoLines.tree = .ok program) ∧
      engine.options.compile "@a.b<1" = engine.options.compile "@a. b<\n1" ∧
      ∀ world, engine.eval "@a.b<1" world = engine.eval "@a. b<\n1" world := by
  intro engine
  have found : Rules.tokens? true 7 (.ofString "@a.b<1") = some onOneLine.tokens := by decide +kernel
  have found' : Rules.tokens? true 9 (.ofString "@a. b<\n1") = some onTwoLines.tokens := by
    decide +kernel
  have parsed : engine.options.parse "@a.b<1" = .ok onOneLine.tree :=
    EngineOptions.parse_ok.mpr (parse_of_rules 7 onOneLine found (by decide))
  have parsed' : engine.options.parse "@a. b<\n1" = .ok onTwoLines.tree :=
    EngineOptions.parse_ok.mpr (parse_of_rules 9 onTwoLines found' (by decide))
  have scanned : engine.options.tokenize "@a.b<1" = .ok onOneLine.tokens :=
    mapError_ok.mpr (Scanner.allTokens_of_rules (Scanner.stands_ofString _ _) found)
  have scanned' : engine.options.tokenize "@a. b<\n1" = .ok onTwoLines.tokens :=
    mapError_ok.mpr (Scanner.allTokens_of_rules (Scanner.stands_ofString _ _) found')
  have same : visible onOneLine.tokens = visible onTwoLines.tokens := by decide
  exact ⟨parsed, parsed', scanned, scanned', same,
    spacing_is_irrelevant engine parsed parsed' scanned scanned' same⟩

end PredicateLang
