import PredicateLang.Proofs.Compilation.Parts

set_option autoImplicit false

namespace PredicateLang

namespace Node

mutual

def numbers : Node → List (Position × String)
  | .program _ items => numbersAll items
  | .identifier _ _ => []
  | .primitive _ inner => inner.numbers
  | .literal position kind raw => if kind = .number then [(position, raw)] else []
  | .compare _ _ _ left right => left.numbers ++ right.numbers
  | .arith _ _ left right => left.numbers ++ right.numbers
  | .logical _ _ left right => left.numbers ++ right.numbers

def numbersAll : List Node → List (Position × String)
  | [] => []
  | node :: rest => node.numbers ++ numbersAll rest

end

end Node

def unreadable? (numbers : List (Position × String)) : Option (Position × String) :=
  numbers.find? fun number => (Double.read? number.2).isNone

theorem unreadable?_append (front behind : List (Position × String)) :
    unreadable? (front ++ behind) = (unreadable? front).or (unreadable? behind) :=
  List.find?_append

def faultOr {α : Type} (unread : Option (Position × String)) (result : Except CompileFault α) :
    Except CompileFault α :=
  unread.elim result fun number => .error (.invalidNumber number.1 number.2)

def Emitted.EndsBy (e : Emitted) (numbers : List (Position × String)) : Prop :=
  ∃ after, e.outcome = faultOr (unreadable? numbers) (.ok after)

namespace Emitted

variable {first : Emitted} {next : EmitContext → Emitted}

theorem EndsBy.andThen {front behind : List (Position × String)} (one : first.EndsBy front)
    (two : ∀ middle, (next middle).EndsBy behind) : (first.andThen next).EndsBy (front ++ behind) := by
  obtain ⟨middle, ended⟩ := one
  rw [EndsBy, unreadable?_append]
  cases bad : unreadable? front with
  | some number =>
      rw [bad] at ended
      exact ⟨middle, by simp [Emitted.andThen, ended, faultOr]⟩
  | none =>
      rw [bad] at ended
      rw [Option.none_or, outcome_andThen ended]
      exact two middle

theorem endsBy_constant (op : Opcode) (v : Value) (context : EmitContext) :
    (constant op v context).EndsBy [] := ⟨_, rfl⟩

theorem endsBy_nothing (context : EmitContext) : (nothing context).EndsBy [] := ⟨context, rfl⟩

end Emitted

open Emitted

theorem endsBy_path (path : List String) (context : EmitContext) :
    (emitPath path context).EndsBy [] := by
  induction path generalizing context with
  | nil => exact endsBy_nothing context
  | cons key rest ih => exact (endsBy_constant _ _ context).andThen ih

theorem endsBy_identifier (name : Identifier) (context : EmitContext) :
    (emitIdentifier name context).EndsBy [] := by
  rw [emitIdentifier]
  split
  · exact (endsBy_constant _ _ context).andThen (endsBy_path name.path)
  · exact endsBy_nothing context

theorem endsBy_literal (position : Position) (kind : LiteralKind) (raw : String)
    (context : EmitContext) :
    (emitLiteral position kind raw context).EndsBy (Node.literal position kind raw).numbers := by
  cases kind with
  | string => exact endsBy_constant _ _ context
  | boolean => exact endsBy_constant _ _ context
  | number =>
      simp only [Node.numbers, if_true, emitLiteral]
      cases read : Double.read? raw with
      | none => exact ⟨context, by simp [unreadable?, read, faultOr]⟩
      | some x => exact ⟨_, by simp [unreadable?, read, faultOr, constant]; rfl⟩

theorem endsBy_operator {node left right : Node} (operands : node.operands? = some (left, right))
    (one : ∀ context, (emit left context).EndsBy left.numbers)
    (two : ∀ context, (emit right context).EndsBy right.numbers) (context : EmitContext) :
    (emit node context).EndsBy (left.numbers ++ right.numbers) := by
  rw [emit_operator operands, ← List.append_nil right.numbers]
  exact (one context).andThen fun before => (two _).andThen fun after => ⟨_, rfl⟩

mutual

theorem endsBy_emit : (node : Node) → (context : EmitContext) →
    (emit node context).EndsBy node.numbers
  | .program _ items, context => by
      rw [emit]
      exact endsBy_emitAll items context
  | .primitive _ inner, context => by
      rw [emit]
      exact endsBy_emit inner context
  | .literal position kind raw, context => by
      rw [emit]
      exact endsBy_literal position kind raw context
  | .identifier _ name, context => by
      rw [emit]
      exact endsBy_identifier name context
  | .compare _ _ _ left right, context =>
      endsBy_operator rfl (endsBy_emit left) (endsBy_emit right) context
  | .arith _ _ left right, context =>
      endsBy_operator rfl (endsBy_emit left) (endsBy_emit right) context
  | .logical _ _ left right, context =>
      endsBy_operator rfl (endsBy_emit left) (endsBy_emit right) context

theorem endsBy_emitAll : (items : List Node) → (context : EmitContext) →
    (emitAll items context).EndsBy (Node.numbersAll items)
  | [], context => by
      rw [emitAll]
      exact endsBy_nothing context
  | node :: rest, context => by
      rw [emitAll]
      exact (endsBy_emit node context).andThen (endsBy_emitAll rest)

end

theorem compile_unvalidated (root : Node) :
    compile false root =
      faultOr (unreadable? root.numbers) (.ok (assemble (emit root .start).items)) := by
  obtain ⟨after, ended⟩ := endsBy_emit root .start
  cases bad : unreadable? root.numbers with
  | none =>
      rw [bad] at ended
      simp [compile, ended, faultOr]
  | some number =>
      rw [bad] at ended
      simp [compile, ended, faultOr]

theorem compile_validated {root : Node} (few : constantCount root < UInt32.size) (validate : Bool) :
    compile validate root = compile false root := by
  cases validate with
  | false => rfl
  | true =>
      simp only [compile, validate_assembled few]
      cases (emit root .start).outcome with
      | error fault => rfl
      | ok after => rfl

theorem unreadable?_sound {node : Node} (sound : node.Sound) : unreadable? node.numbers = none := by
  induction sound with
  | name => rfl
  | @literal position place kind raw v known =>
      cases kind with
      | string => rfl
      | boolean => rfl
      | number =>
          obtain ⟨x, read, -⟩ := Option.map_eq_some_iff.mp known
          simp [Node.numbers, unreadable?, read]
  | @operator node left right operands _ _ _ ihLeft ihRight =>
      have joined : node.numbers = left.numbers ++ right.numbers := by
        cases node <;> cases operands <;> rfl
      rw [joined, unreadable?_append, ihLeft]
      exact ihRight

theorem readable_of_parse {keywordBoundary : Bool} {source : String} {root : Node}
    (parsed : parse (Scanner.ofString keywordBoundary source) = .ok root) :
    unreadable? root.numbers = none := by
  rcases shape_of_parse parsed with rfl | ⟨node, rfl, sound⟩
  · rfl
  · simpa [Node.numbers, Node.numbersAll] using unreadable?_sound sound

/-- Validation changes nothing about what is compiled, and the only fault is that of the first number that
cannot be read. Whatever parses also compiles, to a valid program as long as its constants can be counted. -/
theorem compile_fails_only_at_numbers :
    (∀ root : Node, constantCount root < UInt32.size →
      compile true root = compile false root ∧
      ∀ validate fault, compile validate root = .error fault ↔
        ∃ position raw, unreadable? root.numbers = some (position, raw) ∧
          fault = .invalidNumber position raw) ∧
    ∀ (keywordBoundary : Bool) (source : String) (root : Node),
      parse (Scanner.ofString keywordBoundary source) = .ok root → ∃ program,
        compile false root = .ok program ∧
          (constantCount root < UInt32.size → ∀ validate,
            compile validate root = .ok program ∧ program.validate = .ok ()) := by
  refine ⟨fun root few => ⟨compile_validated few true, fun validate fault => ?_⟩,
    fun keywordBoundary source root parsed => ?_⟩
  · rw [compile_validated few validate, compile_unvalidated]
    cases unreadable? root.numbers with
    | none => simp [faultOr]
    | some number =>
        obtain ⟨position, raw⟩ := number
        constructor
        · intro failed
          cases failed
          exact ⟨position, raw, rfl, rfl⟩
        · rintro ⟨position, raw, same, rfl⟩
          cases same
          rfl
  · have compiled : compile false root = .ok (assemble (emit root .start).items) := by
      rw [compile_unvalidated, readable_of_parse parsed]
      rfl
    refine ⟨_, compiled, fun few validate => ⟨?_, validate_assembled few⟩⟩
    rw [compile_validated few validate, compiled]

-- The tree of `1.5`.
def oneAndHalf : Node := .program .start [.primitive .start (.literal .start .number "1.5")]

-- A number that no text has.
def twoPoints : Node := .literal ⟨1, 3, 3⟩ .number "1.2.3"

theorem parse_one_and_half : parse (Scanner.ofString true "1.5") = .ok oneAndHalf := by
  let number : Grammar.Leaf := .number ⟨.number, .start, "1.5"⟩ rfl
  let derivation : Grammar.Program :=
    .expression [] (((((((number, none), none), []), none), none), none), none) []
      ⟨.eof, ⟨1, 3, 3⟩, ""⟩ (List.forall_mem_nil _) (List.forall_mem_nil _) rfl
  exact parse_of_rules 2 derivation (by decide +kernel) (by decide)

theorem compile_one_and_half :
    compile true twoPoints = .error (.invalidNumber ⟨1, 3, 3⟩ "1.2.3") ∧
      parse (Scanner.ofString true "1.5") = .ok oneAndHalf ∧
        ∃ program, compile true oneAndHalf = .ok program ∧ program.validate = .ok () := by
  obtain ⟨trees, texts⟩ := compile_fails_only_at_numbers
  have few : constantCount twoPoints < UInt32.size := by decide +kernel
  have unread : unreadable? twoPoints.numbers = some (⟨1, 3, 3⟩, "1.2.3") := by decide +kernel
  have few' : constantCount oneAndHalf < UInt32.size := by decide +kernel
  obtain ⟨program, -, valid⟩ := texts true "1.5" oneAndHalf parse_one_and_half
  exact ⟨((trees twoPoints few).2 true _).mpr ⟨_, _, unread, rfl⟩, parse_one_and_half,
    _, (valid few' true).1, (valid few' true).2⟩

end PredicateLang
