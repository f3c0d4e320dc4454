import PredicateLang.Host.Producer
import PredicateLang.Proofs.Compilation.Layout
import PredicateLang.Proofs.Machine.Meanings
import PredicateLang.Proofs.Machine.Segments

set_option autoImplicit false

namespace PredicateLang

inductive Denotes : Node → Term → Prop
  | primitive {position : Position} {inner : Node} {term : Term} (same : Denotes inner term) :
      Denotes (.primitive position inner) term
  | literal {position : Position} {kind : LiteralKind} {raw : String} {v : Value}
      (known : Term.literalOf? kind raw = some v) :
      Denotes (.literal position kind raw) (.constant v)
  | external {position : Position} {name : Identifier} (outside : name.external = true) :
      Denotes (.identifier position name) (.external name.base name.path)
  | compare {position : Position} {relation : Relation} {op : Comparison} {left right : Node}
      {x y : Term} (one : Denotes left x) (two : Denotes right y) :
      Denotes (.compare position relation op left right) (.compare op x y)
  | arith {position : Position} {op : Arithmetic} {left right : Node} {x y : Term}
      (one : Denotes left x) (two : Denotes right y) :
      Denotes (.arith position op left right) (.arith op x y)
  | logical {position : Position} {op : Connective} {left right : Node} {x y : Term}
      (one : Denotes left x) (two : Denotes right y) :
      Denotes (.logical position op left right) (.logical op x y)

theorem denotes_of_ofNode? : (node : Node) → (term : Term) → Term.ofNode? node = some term →
    Denotes node term
  | .program _ _, _, h => by cases h
  | .primitive _ inner, term, h => .primitive (denotes_of_ofNode? inner term h)
  | .literal _ kind raw, term, h => by
      obtain ⟨v, known, rfl⟩ := Option.map_eq_some_iff.mp h
      exact .literal known
  | .identifier _ name, term, h => by
      simp only [Term.ofNode?] at h
      split at h
      · cases h
        exact .external ‹_›
      · cases h
  | .compare _ _ op left right, term, h => by
      obtain ⟨x, one, h⟩ := Option.bind_eq_some_iff.mp h
      obtain ⟨y, two, h⟩ := Option.bind_eq_some_iff.mp h
      cases h
      exact .compare (denotes_of_ofNode? left x one) (denotes_of_ofNode? right y two)
  | .arith _ op left right, term, h => by
      obtain ⟨x, one, h⟩ := Option.bind_eq_some_iff.mp h
      obtain ⟨y, two, h⟩ := Option.bind_eq_some_iff.mp h
      cases h
      exact .arith (denotes_of_ofNode? left x one) (denotes_of_ofNode? right y two)
  | .logical _ op left right, term, h => by
      obtain ⟨x, one, h⟩ := Option.bind_eq_some_iff.mp h
      obtain ⟨y, two, h⟩ := Option.bind_eq_some_iff.mp h
      cases h
      exact .logical (denotes_of_ofNode? left x one) (denotes_of_ofNode? right y two)

open Emitted

theorem outcome_path (path : List String) (context : EmitContext) :
    ∃ after, (emitPath path context).outcome = .ok after ∧
      after.lastKind = if path.isEmpty then context.lastKind else some .attrRef := by
  induction path generalizing context with
  | nil => exact ⟨context, rfl, rfl⟩
  | cons key rest ih =>
      obtain ⟨after, done, kind⟩ := ih ⟨context.nextConstant + 1, some .attrRef⟩
      refine ⟨after, done, ?_⟩
      rw [kind]
      cases rest <;> rfl

theorem outcome_literal {kind : LiteralKind} {raw : String} {v : Value}
    (known : Term.literalOf? kind raw = some v) (position : Position) (context : EmitContext) :
    ∃ load : LoadKind, load.accepts v.kind = true ∧
      emitLiteral position kind raw context = .constant (.load load) v context := by
  cases kind with
  | string => cases known; exact ⟨.string, rfl, rfl⟩
  | boolean => cases known; exact ⟨.int, rfl, rfl⟩
  | number =>
      obtain ⟨x, read, rfl⟩ := Option.map_eq_some_iff.mp known
      exact ⟨.double, rfl, by simp only [emitLiteral, read]⟩

theorem outcome_operands {left right : Node} {context before after : EmitContext} (op : Opcode)
    (one : (emit left context).outcome = .ok before)
    (two : (emit right before).outcome = .ok after) :
    (((emit left context).andThen (emit right)).andThen (.opcode op)).outcome = .ok after := by
  have both := (outcome_andThen one).trans two
  rw [outcome_andThen both]
  rfl

theorem outcome_of_denotes {node : Node} {term : Term} (denotes : Denotes node term)
    (context : EmitContext) :
    ∃ after, (emit node context).outcome = .ok after ∧ after.lastKind = term.kind? := by
  induction denotes generalizing context with
  | primitive _ ih => simpa only [emit] using ih context
  | literal known =>
      obtain ⟨load, -, same⟩ := outcome_literal known _ context
      rw [emit, same]
      exact ⟨_, rfl, rfl⟩
  | @external position name outside =>
      obtain ⟨after, done, kind⟩ :=
        outcome_path name.path ⟨context.nextConstant + 1, some .dataRef⟩
      refine ⟨after, ?_, ?_⟩
      · rw [emit, emitIdentifier, if_pos outside, outcome_andThen rfl]
        exact done
      · rw [kind]
        cases name.path <;> rfl
  | compare _ _ one two =>
      obtain ⟨before, left, -⟩ := one context
      obtain ⟨after, right, kind⟩ := two before
      refine ⟨after, ?_, kind⟩
      rw [emit]
      exact outcome_operands _ left right
  | arith _ _ one two =>
      obtain ⟨before, left, -⟩ := one context
      obtain ⟨after, right, -⟩ := two before.cleared
      refine ⟨after.cleared, ?_, rfl⟩
      rw [emit, outcome_andThen left, outcome_andThen right]
      rfl
  | logical _ _ one two =>
      obtain ⟨before, left, -⟩ := one context
      obtain ⟨after, right, kind⟩ := two before
      refine ⟨after, ?_, kind⟩
      rw [emit]
      exact outcome_operands _ left right

def Pushes {ω : Type} (m : Machine ω) (words : List UInt32) (room : Nat)
    (result : Except RuntimeCause Value) : Prop :=
  ∀ pc stack world, stack.length + room ≤ m.limit →
    Machine.causes (m.runFrom ⟨pc, words, stack, world⟩) = (result.map (· :: stack), world)

section

variable {ω : Type} {m : Machine ω}

theorem Pushes.mono {words : List UInt32} {room more : Nat} {result : Except RuntimeCause Value}
    (h : Pushes m words room result) (le : room ≤ more) : Pushes m words more result :=
  fun pc stack world fits => h pc stack world (by omega)

theorem push_ok {limit : Nat} {stack : Stack} (room : stack.length < limit) (v : Value) :
    Stack.push limit v stack = .ok (v :: stack) := by
  simp [Stack.push, room]

theorem Pushes.binary {first second : List UInt32} {op : Opcode} {left right : Nat}
    {x y : Except RuntimeCause Value} {f : Value → Value → Except RuntimeCause Value}
    (alone : op.hasOperand = false)
    (acts : ∀ v w stack, stack.length < m.limit →
      op.perform none m.limit (w :: v :: stack) = (f v w).map (· :: stack))
    (wholeFirst : Whole first) (wholeSecond : Whole second)
    (one : Pushes m first left x) (two : Pushes m second right y) :
    Pushes m (first ++ (second ++ [op.word])) (1 + (left + right)) (do f (← x) (← y)) := by
  intro pc stack world fits
  have before := one pc stack world (by omega)
  rw [m.runFrom_append wholeFirst]
  cases x with
  | error cause =>
      -- The right side is never reached, whatever it would come to.
      exact Machine.causes_goOn_error before _
  | ok v =>
      rw [Machine.causes_goOn_ok before, m.runFrom_append wholeSecond]
      have after := two (pc + first.length) (v :: stack) world (by simp; omega)
      cases y with
      | error cause => exact Machine.causes_goOn_error after _
      | ok w =>
          rw [Machine.causes_goOn_ok after, m.causes_operation alone]
          have other : op ≠ .getStatic := by rintro rfl; cases alone
          rw [m.perform_of_ne other, acts v w stack (by omega)]
          rfl

theorem push_map {limit : Nat} {stack : Stack} (room : stack.length < limit)
    (result : Except RuntimeCause Value) :
    (do Stack.push limit (← result) stack) = result.map (· :: stack) := by
  cases result with
  | error cause => rfl
  | ok v => exact push_ok room v

theorem perform_compare (op : Comparison) {limit : Nat} {stack : Stack}
    (room : stack.length < limit) (v w : Value) :
    (Opcode.compare op).perform none limit (w :: v :: stack) =
      (Except.ok (Term.comparison op v w)).map (· :: stack) := by
  rw [← Term.comparison_means]
  exact push_ok room _

theorem perform_arithmetic (op : Arithmetic) (left right : Option ValueKind) {limit : Nat}
    {stack : Stack} (room : stack.length < limit) (v w : Value) :
    (arithmeticOpcode op left right).perform none limit (w :: v :: stack) =
      (Term.arithmetic op [left, right] v w).map (· :: stack) := by
  rw [Term.arithmetic_means]
  cases op with
  | add =>
      simp only [arithmeticOpcode, List.mem_cons, List.not_mem_nil, or_false,
        @eq_comm _ (some ValueKind.string), @eq_comm _ (some ValueKind.double)]
      split_ifs <;> exact push_map room _
  | _ => exact push_map room _

theorem perform_connective (op : Connective) {limit : Nat} {stack : Stack}
    (room : stack.length < limit) (v w : Value) :
    (connectiveOpcode op).perform none limit (w :: v :: stack) =
      (Term.connective op v w).map (· :: stack) := by
  rw [Term.connective_means]
  cases op <;> exact push_map room _

theorem pushes_literal {load : LoadKind} {v : Value} (suits : load.accepts v.kind = true)
    {context : EmitContext} (hosted : Hosts m.constants context.nextConstant [v]) :
    Pushes m (constant (.load load) v context).words 1 (.ok v) := by
  intro pc stack world fits
  rw [words_constant, m.causes_reference rfl hosted.get]
  have pushed : m.perform ⟨.load load, some v, []⟩ stack world = (.ok (v :: stack), world) := by
    have other : Opcode.load load ≠ .getStatic := Opcode.noConfusion
    rw [m.perform_of_ne other]
    simp only [Opcode.perform, loadOf, suits, if_true]
    rw [push_ok (by omega)]
  rw [Machine.causes_goOn_ok ((m.causes_act pc _ _ _ _).trans pushed), m.runFrom_nil]
  rfl

theorem causes_path {path : List String} {context : EmitContext}
    (hosted : Hosts m.constants context.nextConstant (emitPath path context).pool) (v : Value)
    (pc : Nat) (stack : Stack) (world : ω) (room : stack.length < m.limit) :
    Machine.causes (m.runFrom ⟨pc, (emitPath path context).words, v :: stack, world⟩) =
      ((path.foldlM Term.attributeOf v).map (· :: stack), world) := by
  -- Each attribute takes the value in front of it off the stack, so the room stays the same.
  induction path generalizing context v pc with
  | nil =>
      rw [emitPath, words_nothing, m.runFrom_nil]
      rfl
  | cons key rest ih =>
      rw [emitPath, pool_andThen rfl, pool_constant] at hosted
      rw [emitPath, words_andThen rfl, words_constant, List.cons_append, List.cons_append,
        List.nil_append, m.causes_reference rfl hosted.left.get, List.foldlM_cons]
      have taken : m.perform ⟨.getAttr, some (.attrRef key (context.nextConstant - 1)), []⟩
          (v :: stack) world = ((Term.attributeOf v key).map (· :: stack), world) := by
        have other : Opcode.getAttr ≠ .getStatic := by decide
        rw [m.perform_of_ne other, ← Term.attribute_means]
        exact congrArg (·, world) (push_map room (attribute? v key))
      have step := (m.causes_act pc _ _ _ _).trans taken
      cases found : Term.attributeOf v key with
      | error cause =>
          rw [found] at step
          exact Machine.causes_goOn_error step _
      | ok w =>
          rw [found] at step
          rw [Machine.causes_goOn_ok step]
          exact ih hosted.right w _

theorem pushes_external {supply : Supply} (supplied : m.bindings.Supplies supply)
    {name : Identifier} (outside : name.external = true) {context : EmitContext}
    (hosted : Hosts m.constants context.nextConstant (emitIdentifier name context).pool) :
    Pushes m (emitIdentifier name context).words 1
      ((Term.external name.base name.path).evaluate supply) := by
  intro pc stack world fits
  rw [emitIdentifier, if_pos outside, pool_andThen rfl, pool_constant] at hosted
  rw [emitIdentifier, if_pos outside, words_andThen rfl, words_constant, List.cons_append,
    List.cons_append, List.nil_append, m.causes_reference rfl hosted.left.get]
  have fetched : m.perform ⟨.getStatic, some (.dataRef name.base .static), []⟩ stack world =
      ((Term.supplied supply name.base).map (· :: stack), world) := by
    simp only [Machine.perform, fetchBinding, supplied name.base world, Term.supplied]
    rcases supply name.base with _ | fault | v
    · rfl
    · rfl
    · simp [push_ok (show stack.length < m.limit by omega), Except.map]
  have step := (m.causes_act pc _ _ _ _).trans fetched
  simp only [Term.evaluate]
  cases found : Term.supplied supply name.base with
  | error cause =>
      rw [found] at step
      exact Machine.causes_goOn_error step _
  | ok v =>
      rw [found] at step
      rw [Machine.causes_goOn_ok step]
      exact causes_path hosted.right v _ stack world (by omega)

theorem hosted_operands {node : Node} {context before : EmitContext} {second : List Value}
    (done : (emit node context).outcome = .ok before)
    (hosted : Hosts m.constants context.nextConstant ((emit node context).pool ++ second)) :
    Hosts m.constants context.nextConstant (emit node context).pool ∧
      Hosts m.constants before.nextConstant second :=
  ⟨hosted.left, (laidOut_emit node context).counted before done ▸ hosted.right⟩

theorem pushes_operands {supply : Supply} {left right : Node} {x y : Term} {op : Opcode}
    {f : Value → Value → Except RuntimeCause Value} (alone : op.hasOperand = false)
    (acts : ∀ v w stack, stack.length < m.limit →
      op.perform none m.limit (w :: v :: stack) = (f v w).map (· :: stack))
    (one : Denotes left x) (two : Denotes right y)
    (pushesLeft : ∀ context, Hosts m.constants context.nextConstant (emit left context).pool →
      Pushes m (emit left context).words left.count (x.evaluate supply))
    (pushesRight : ∀ context, Hosts m.constants context.nextConstant (emit right context).pool →
      Pushes m (emit right context).words right.count (y.evaluate supply))
    (context : EmitContext)
    (hosted : Hosts m.constants context.nextConstant
      (((emit left context).andThen (emit right)).andThen (.opcode op)).pool) :
    Pushes m (((emit left context).andThen (emit right)).andThen (.opcode op)).words
      (1 + (left.count + right.count)) (do f (← x.evaluate supply) (← y.evaluate supply)) := by
  obtain ⟨before, doneLeft, -⟩ := outcome_of_denotes one context
  obtain ⟨after, doneRight, -⟩ := outcome_of_denotes two before
  have both := (outcome_andThen doneLeft).trans doneRight
  rw [pool_andThen both, pool_andThen doneLeft, pool_opcode, List.append_nil] at hosted
  rw [words_andThen both, words_andThen doneLeft, words_opcode, List.append_assoc]
  obtain ⟨hostedLeft, hostedRight⟩ := hosted_operands doneLeft hosted
  exact .binary alone acts (laidOut_emit left context).whole (laidOut_emit right before).whole
    (pushesLeft context hostedLeft) (pushesRight before hostedRight)

theorem pushes_of_denotes {supply : Supply} (supplied : m.bindings.Supplies supply) {node : Node}
    {term : Term} (denotes : Denotes node term) (context : EmitContext)
    (hosted : Hosts m.constants context.nextConstant (emit node context).pool) :
    Pushes m (emit node context).words node.count (term.evaluate supply) := by
  -- The right side of an operator is emitted behind the left one: hence any context, and a pool that
  -- holds the constants from there on.
  induction denotes generalizing context with
  | primitive _ ih =>
      rw [emit] at hosted ⊢
      exact (ih context hosted).mono (by simp [Node.count])
  | literal known =>
      obtain ⟨load, suits, same⟩ := outcome_literal known _ context
      rw [emit, same] at hosted ⊢
      exact pushes_literal suits hosted
  | external outside =>
      rw [emit] at hosted ⊢
      exact pushes_external supplied outside hosted
  | @compare position relation op left right x y one two ihOne ihTwo =>
      rw [emit] at hosted ⊢
      exact pushes_operands (f := fun v w => .ok (Term.comparison op v w)) rfl
        (fun v w stack room => perform_compare op room v w) one two ihOne ihTwo context hosted
  | @arith position op left right x y one two ihOne ihTwo =>
      obtain ⟨before, doneLeft, kindLeft⟩ := outcome_of_denotes one context
      obtain ⟨after, doneRight, kindRight⟩ := outcome_of_denotes two before.cleared
      -- The operation of a sum hangs on the kinds that both sides leave behind.
      rw [emit, pool_andThen doneLeft, pool_andThen doneRight, pool_opcode,
        List.append_nil] at hosted
      rw [emit, words_andThen doneLeft, words_andThen doneRight, words_opcode, kindLeft, kindRight]
      obtain ⟨hostedLeft, hostedRight⟩ := hosted_operands doneLeft hosted
      exact .binary (arithmeticOpcode_alone op _ _)
        (fun v w stack room => perform_arithmetic op _ _ room v w)
        (laidOut_emit left context).whole (laidOut_emit right before.cleared).whole
        (ihOne context hostedLeft) (ihTwo before.cleared hostedRight)
  | @logical position op left right x y one two ihOne ihTwo =>
      rw [emit] at hosted ⊢
      exact pushes_operands (connectiveOpcode_alone op)
        (fun v w stack room => perform_connective op room v w) one two ihOne ihTwo context hosted

end

theorem outcome_root (position : Position) {node : Node} {context after : EmitContext}
    (done : (emit node context).outcome = .ok after) :
    (emit (.program position [node]) context).outcome = .ok after := by
  rw [emit, emitAll, outcome_andThen done]
  rfl

theorem words_root (position : Position) {node : Node} {context after : EmitContext}
    (done : (emit node context).outcome = .ok after) :
    (emit (.program position [node]) context).words = (emit node context).words := by
  rw [emit, emitAll, words_andThen done, emitAll, words_nothing, List.append_nil]

theorem pool_root (position : Position) {node : Node} {context after : EmitContext}
    (done : (emit node context).outcome = .ok after) :
    (emit (.program position [node]) context).pool = (emit node context).pool := by
  rw [emit, emitAll, pool_andThen done, emitAll, pool_nothing, List.append_nil]

theorem run_of_pushes {ω : Type} {p : Program} {bindings : Bindings ω} {limit room : Nat}
    {result : Except RuntimeCause Value}
    (pushes : Pushes ⟨p.constants, bindings, limit⟩ p.words room result) (fits : room ≤ limit)
    (world : ω) :
    (p.run bindings limit world).2 = world ∧
      (∀ v, (p.run bindings limit world).1 = .ok (some v) ↔ result = .ok v) ∧
      ∀ cause, (∃ pc, (p.run bindings limit world).1 = .error ⟨pc, cause⟩) ↔
        result = .error cause := by
  have ended := pushes 0 [] world (by simpa using fits)
  simp only [Program.run, Machine.run]
  generalize Machine.runFrom _ _ = outcome at ended ⊢
  obtain ⟨fault | stack, after⟩ := outcome
  · cases result with
    | ok v => cases ended
    | error cause =>
        cases ended
        refine ⟨rfl, fun v => ?_, fun other => ⟨?_, ?_⟩⟩
        · constructor <;> (intro same; cases same)
        · rintro ⟨pc, same⟩
          cases same
          rfl
        · intro same
          cases same
          exact ⟨fault.pc, rfl⟩
  · cases result with
    | error cause => cases ended
    | ok v =>
        cases ended
        refine ⟨rfl, fun w => ⟨fun same => ?_, fun same => ?_⟩, fun cause => ⟨?_, fun same => ?_⟩⟩
        · cases same
          rfl
        · cases same
          rfl
        · rintro ⟨pc, same⟩
          cases same
        · cases same

/-- The program of an expression gives the value of its term, or ends in the fault of its evaluation. -/
theorem run_compiled_iff_evaluates {ω : Type} {position : Position} {node : Node} {term : Term}
    (expression : Term.ofNode? node = some term)
    (few : constantCount (.program position [node]) < UInt32.size)
    {bindings : Bindings ω} {supply : Supply} (supplied : bindings.Supplies supply)
    {limit : Nat} (room : (Node.program position [node]).count ≤ limit)
    (validate : Bool) (world : ω) :
    ∃ program, compile validate (.program position [node]) = .ok program ∧
      (program.run bindings limit world).2 = world ∧
      (∀ v, (program.run bindings limit world).1 = .ok (some v) ↔
        term.evaluate supply = .ok v) ∧
      ∀ cause, (∃ pc, (program.run bindings limit world).1 = .error ⟨pc, cause⟩) ↔
        term.evaluate supply = .error cause := by
  have denotes := denotes_of_ofNode? node term expression
  obtain ⟨after, done, -⟩ := outcome_of_denotes denotes .start
  have pool := pool_root position done
  have hosted : Hosts (emit (.program position [node]) .start).pool 0 (emit node .start).pool := by
    rw [pool]
    refine Hosts.whole ?_
    rw [← pool]
    exact few
  have pushes : Pushes ⟨(emit (.program position [node]) .start).pool, bindings, limit⟩
      (emit (.program position [node]) .start).words node.count (term.evaluate supply) := by
    rw [words_root position done]
    exact pushes_of_denotes supplied denotes .start hosted
  have fits : node.count ≤ limit := by
    simp only [Node.count, Node.countAll] at room
    omega
  exact ⟨_, compile_of_outcome (outcome_root position done) few validate,
    run_of_pushes (p := assemble _) pushes fits world⟩

theorem supplies_register_fixed {ω : Type} (name : String) (v : Value) :
    ((Bindings.empty : Bindings ω).register name (Producer.fixed v)).Supplies
      fun key => if key = name then some (.ok v) else none := by
  intro key world
  by_cases same : key = name
  · simp [Bindings.resolve, same, Producer.fixed]
  · simp only [Bindings.resolve, Bindings.find?_register_of_ne same, if_neg same]
    rfl

-- The tree of `@user.role + "!"`.
def exclamation : Node :=
  .arith ⟨1, 11, 11⟩ .add
    (.primitive .start (.identifier .start ⟨true, "user", ["role"]⟩))
    (.primitive ⟨1, 13, 13⟩ (.literal ⟨1, 13, 13⟩ .string "!"))

-- The tree of `2 + 3 * 4`.
def fourteen : Node :=
  .arith ⟨1, 2, 2⟩ .add (.primitive .start (.literal .start .number "2"))
    (.arith ⟨1, 6, 6⟩ .mul (.primitive ⟨1, 4, 4⟩ (.literal ⟨1, 4, 4⟩ .number "3"))
      (.primitive ⟨1, 8, 8⟩ (.literal ⟨1, 8, 8⟩ .number "4")))

theorem run_exclamation_and_fourteen :
    let text : Term := .arith .add (.external "user" ["role"]) (.constant (.string "!"))
    let sum : Term := .arith .add (.constant (.double 2))
      (.arith .mul (.constant (.double 3)) (.constant (.double 4)))
    let bindings : Bindings Unit :=
      Bindings.empty.register "user" (Producer.fixed (.object [("role", .string "admin")]))
    (Term.ofNode? exclamation = some text ∧
      constantCount (.program .start [exclamation]) < UInt32.size ∧
      (Node.program .start [exclamation]).count ≤ 6 ∧
      ∃ program, compile true (.program .start [exclamation]) = .ok program ∧
        (program.run bindings 6 ()).1 = .ok (some (.string "admin!"))) ∧
    Term.ofNode? fourteen = some sum ∧
      constantCount (.program .start [fourteen]) < UInt32.size ∧
      (Node.program .start [fourteen]).count ≤ 9 ∧
      ∃ program, compile true (.program .start [fourteen]) = .ok program ∧
        (program.run bindings 9 ()).1 = .ok (some (.double 14)) := by
  intro text sum bindings
  have supplied := supplies_register_fixed (ω := Unit) "user" (.object [("role", .string "admin")])
  constructor
  · have expression : Term.ofNode? exclamation = some text := rfl
    have few : constantCount (.program .start [exclamation]) < UInt32.size := by decide
    have room : (Node.program .start [exclamation]).count ≤ 6 := by decide
    obtain ⟨program, compiled, -, values, -⟩ :=
      run_compiled_iff_evaluates expression few supplied room true ()
    exact ⟨expression, few, room, program, compiled, (values _).mpr rfl⟩
  · have two : Double.read? "2" = some 2 := by decide +kernel
    have three : Double.read? "3" = some 3 := by decide +kernel
    have four : Double.read? "4" = some 4 := by decide +kernel
    have expression : Term.ofNode? fourteen = some sum := by
      simp [fourteen, sum, Term.ofNode?, Term.literalOf?, two, three, four]
    have few : constantCount (.program .start [fourteen]) < UInt32.size := by decide
    have room : (Node.program .start [fourteen]).count ≤ 9 := by decide
    obtain ⟨program, compiled, -, values, -⟩ :=
      run_compiled_iff_evaluates expression few supplied room true ()
    have twelve : (3 : Float) * 4 = 12 := by decide +kernel
    have whole : (2 : Float) + 12 = 14 := by decide +kernel
    have evaluated (supply : Supply) : sum.evaluate supply = .ok (.double 14) := by
      rw [← whole, ← twelve]
      rfl
    exact ⟨expression, few, room, program, compiled, (values _).mpr (evaluated _)⟩

end PredicateLang
