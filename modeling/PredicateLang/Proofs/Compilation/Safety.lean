import PredicateLang.Proofs.Compilation.Heights

set_option autoImplicit false

namespace PredicateLang

/-- The faults that the run of an expression can end in. -/
inductive Node.Foresees {ω : Type} (node : Node) (bindings : Bindings ω) (limit : Nat) :
    RuntimeCause → Prop
  | mismatch (op : Opcode) (found : ValueKind) : Foresees node bindings limit (.typeMismatch op found)
  | unresolved {name : String} (asked : name ∈ node.references)
      (absent : bindings.find? name = none) : Foresees node bindings limit (.unresolvedBinding name)
  | unsupported {name : String} (asked : name ∈ node.references) (fault : BridgeFault) :
      Foresees node bindings limit (.unsupportedHostType name fault)
  | lacking {name : Identifier} {key : String} (among : name ∈ node.names) (part : key ∈ name.path) :
      Foresees node bindings limit (.attributeNotFound key)
  | division : Foresees node bindings limit (.divisionByZero (.double .div))
  | underflow {name : Identifier} (among : name ∈ node.names) (plain : name.external = false)
      (op : Opcode) : Foresees node bindings limit (.stackUnderflow op)
  | overflow (low : limit < node.depth) : Foresees node bindings limit (.stackOverflow limit)

theorem Value.Among.asked {node : Node} {base : String} {scope : Scope}
    (among : (Value.dataRef base scope).Among node.names) :
    scope = .static ∧ base ∈ node.references := by
  obtain ⟨static, name, present, outside, rfl⟩ := among
  exact ⟨static, List.mem_map_of_mem (List.mem_filter.mpr ⟨present, outside⟩)⟩

section

variable {ω : Type} {engine : Engine ω} {program : Program} {node : Node} {visits : List Visit}
  {last : Nat}

theorem foreseen_of_fails (parsed : node.Parsed) (climbs : program.Climbs node visits last)
    {visit : Visit} (visited : visit ∈ visits) {stack : Stack} (height : stack.length = visit.height)
    {cause : RuntimeCause}
    (fails : Fails engine.bindings visit.opcode visit.constant stack cause) :
    node.Foresees engine.bindings engine.options.maxStack cause := by
  have emitted := climbs.heights.emitted visit visited
  have among (v : Value) (named : visit.constant = some v) : v.Among node.names := by
    rcases climbs.passage.constant_held visit visited with ⟨-, none⟩ | ⟨constant, held, same⟩
    · cases none.symm.trans named
    · cases same.symm.trans named
      exact climbs.among v held
  cases fails with
  | underflow short =>
      by_contra unforeseen
      have supplied : ∀ name ∈ node.names, name.external = true := by
        intro name present
        by_contra plain
        exact unforeseen (.underflow present (by simpa using plain) _)
      have enough := (climbs.heights.supplied supplied).2 visit visited
      omega
  | mismatch found => exact .mismatch _ found
  | division divides =>
      rw [Opcode.divides_emitted emitted divides]
      exact .division
  | unimplemented reserved =>
      rw [reserved] at emitted
      cases emitted
  | missing followed absent =>
      rcases climbs.passage.constant_held visit visited with ⟨alone, -⟩ | ⟨constant, -, same⟩
      · cases alone.symm.trans followed
      · cases absent.symm.trans same
  | lacking named =>
      obtain ⟨name, present, -, part⟩ := among _ named
      exact .lacking present part
  | index named read =>
      -- The attributes of a text are words, never numbers.
      obtain ⟨name, present, -, part⟩ := among _ named
      cases (parsed.uncounted name present _ part).symm.trans read
  | unresolved named absent =>
      obtain ⟨static, asked⟩ := (among _ named).asked
      exact .unresolved asked (absent static)
  | unsupported named fault => exact .unsupported (among _ named).asked.2 fault

theorem foreseen_of_run (parsed : node.Parsed) (climbs : program.Climbs node visits last) {world : ω}
    {fault : RuntimeFault} (failed : (engine.run program world).1 = .error (.running fault)) :
    node.Foresees engine.bindings engine.options.maxStack fault.cause := by
  obtain ⟨visit, visited, ⟨stack, height, fails⟩ | ⟨full, beyond⟩⟩ :=
    Machine.run_error climbs.passage (Engine.fault_of_run failed)
  · exact foreseen_of_fails parsed climbs visited height fails
  · rw [full]
    have low := (climbs.heights.low visit visited).2
    exact .overflow (by simp only [Engine.machine] at beyond ⊢; omega)

theorem foreseen_of_eval {source : String} {world : ω} {fault : RuntimeFault}
    (failed : (engine.eval source world).1 = .error (.running fault)) :
    ∃ node, engine.options.parse source = .ok (.program .start [node]) ∧ node.Parsed ∧
      node.Foresees engine.bindings engine.options.maxStack fault.cause := by
  have late (early : EngineFault) (stopped : engine.options.compile source = .error early) :
      Except.error (EngineFault.running fault) ≠ (.error early : Except EngineFault (Option Value)) := by
    rintro ⟨⟩
    exact EngineOptions.compile_not_running stopped fault rfl
  obtain ⟨program, compiled, failed⟩ := Engine.run_of_eval failed late
  rcases compiled_of_source compiled with
    ⟨rfl, -⟩ | ⟨node, visits, last, parsed, expression, climbs⟩
  · cases (congrArg Prod.fst (engine.run_empty world)).symm.trans failed
  · exact ⟨node, parsed, expression, foreseen_of_run expression climbs failed⟩

theorem plain_of_empty (climbs : program.Climbs node visits last) {world : ω}
    (done : ((engine.machine program).run program.words world).1 = .ok []) :
    ∃ place position name, node = .primitive place (.identifier position name) ∧
      name.external = false := by
  have none : 0 = last := Machine.run_ok climbs.passage done
  have plain : node.isPlain = true := by
    by_contra other
    have some := climbs.heights.filled (by simpa using other)
    omega
  unfold Node.isPlain at plain
  split at plain
  · exact ⟨_, _, _, rfl, by simpa using plain⟩
  · cases plain

theorem eval_silent {source : String} {root : Node}
    (parsed : engine.options.parse source = .ok root)
    (silent : emit root .start = .nothing .start) (world : ω) :
    (engine.eval source world).1 = .ok none := by
  have built : compile engine.options.validate root = .ok .empty := by
    simp only [compile, silent]
    cases engine.options.validate <;> rfl
  rw [engine.eval_of_compiled (EngineOptions.compile_ok.mpr ⟨root, parsed, built⟩), engine.run_empty]

theorem eval_none_iff (engine : Engine ω) (source : String) (world : ω) :
    (engine.eval source world).1 = .ok none ↔ (∀ c ∈ source.toList, isBlank c = true) ∨
      ∃ place position name, engine.options.parse source =
        .ok (.program .start [.primitive place (.identifier position name)]) ∧
          name.external = false := by
  constructor
  · intro done
    obtain ⟨program, compiled, done⟩ := Engine.run_of_eval done nofun
    obtain ⟨stack, ran, top⟩ := Engine.stack_of_run done
    obtain rfl := List.head?_eq_none_iff.mp top
    rcases compiled_of_source compiled with
      ⟨-, blank⟩ | ⟨node, visits, last, parsed, -, climbs⟩
    · exact .inl blank
    · obtain ⟨place, position, name, rfl, plain⟩ := plain_of_empty climbs ran
      exact .inr ⟨place, position, name, parsed, plain⟩
  · rintro (blank | ⟨place, position, name, parsed, plain⟩)
    · exact eval_silent (EngineOptions.parse_ok.mpr (parse_blanks _ blank)) rfl world
    · refine eval_silent parsed ?_ world
      simp only [emit, emitAll, emitIdentifier, plain]
      rfl

end

/-- The program of a text ends in faults of its operands, its references and the limits of the stack only:
it is never out of step with its constants. It leaves one value, unless the text has a plain name, and
nothing if the text is blank or a plain name itself. -/
theorem eval_ends_as_foreseen {ω : Type} (engine : Engine ω) (source : String) (world : ω) :
    (∀ fault, (engine.eval source world).1 = .error (.running fault) →
      ∃ node, engine.options.parse source = .ok (.program .start [node]) ∧
        node.Foresees engine.bindings engine.options.maxStack fault.cause) ∧
    ((engine.eval source world).1 = .ok none ↔ (∀ c ∈ source.toList, isBlank c = true) ∨
      ∃ place position name, engine.options.parse source =
        .ok (.program .start [.primitive place (.identifier position name)]) ∧
          name.external = false) ∧
    ∀ root program stack after, engine.options.parse source = .ok root →
      (∀ name ∈ root.names, name.external = true) → (∃ c ∈ source.toList, isBlank c = false) →
      engine.options.compile source = .ok program →
      (engine.machine program).run program.words world = (.ok stack, after) →
      ∃ v, stack = [v] ∧ engine.eval source world = (.ok (some v), after) := by
  refine ⟨fun fault failed => ?_, eval_none_iff engine source world, ?_⟩
  · obtain ⟨node, parsed, -, foreseen⟩ := foreseen_of_eval failed
    exact ⟨node, parsed, foreseen⟩
  · rintro root program stack after parsed supplied ⟨c, present, mark⟩ compiled ran
    rcases compiled_of_source compiled with
      ⟨-, blank⟩ | ⟨node, visits, last, same, expression, climbs⟩
    · cases mark.symm.trans (blank c present)
    · cases parsed.symm.trans same
      simp only [Node.names, Node.namesAll, List.append_nil] at supplied
      have one : stack.length = 1 := by
        rw [Machine.run_ok climbs.passage (congrArg Prod.fst ran), (climbs.heights.supplied supplied).1]
      obtain ⟨v, rfl⟩ := List.length_eq_one_iff.mp one
      refine ⟨v, rfl, ?_⟩
      rw [engine.eval_of_compiled compiled, Engine.run_machine, ran]
      rfl

def roleAndMarkProgram : Program :=
  ⟨[1, 0, 2, 1, 22, 2, 23], [.dataRef "user" .static, .attrRef "role" 0, .string "!"]⟩

theorem eval_role_and_mark :
    let source := "@user.role + \"!\""
    let tree := Node.program .start [exclamation]
    let engine : Engine Unit :=
      (Engine.ofOptions .default).register "user" (Producer.fixed (.object [("role", .string "admin")]))
    engine.options.parse source = .ok tree ∧
      (∀ name ∈ tree.names, name.external = true) ∧
      (∃ c ∈ source.toList, isBlank c = false) ∧
      engine.options.compile source = .ok roleAndMarkProgram ∧
      (engine.machine roleAndMarkProgram).run roleAndMarkProgram.words () = (.ok [.string "admin!"], ()) ∧
      ∃ v, [Value.string "admin!"] = [v] ∧ engine.eval source () = (.ok (some v), ()) := by
  intro source tree engine
  let role : Grammar.Segment :=
    ⟨⟨.dot, ⟨1, 5, 5⟩, "."⟩, [], ⟨.identifier, ⟨1, 6, 6⟩, "role"⟩, rfl, List.forall_mem_nil _, rfl⟩
  let name : Grammar.Leaf :=
    .external ⟨.atSign, .start, "@"⟩ ⟨.identifier, ⟨1, 1, 1⟩, "user"⟩ [role] rfl rfl
  let mark : Grammar.Leaf := .string ⟨.string, ⟨1, 13, 13⟩, "!"⟩ rfl
  let derivation : Grammar.Program :=
    .expression [] (((((((name, none), none), [⟨[.space 10], ⟨.add, ⟨1, 11, 11⟩, "+"⟩, [.space 12], _,
      ((mark, none), none), Grammar.blanks_space 10, .add rfl, Grammar.blanks_space 12⟩]), none), none),
      none), none) [] ⟨.eof, ⟨1, 16, 16⟩, ""⟩ (List.forall_mem_nil _) (List.forall_mem_nil _) rfl
  have parsed : engine.options.parse source = .ok tree :=
    EngineOptions.parse_ok.mpr (parse_of_rules 10 derivation (by decide +kernel) (by decide))
  have supplied : ∀ name ∈ tree.names, name.external = true := by decide
  have marked : ∃ c ∈ source.toList, isBlank c = false := ⟨'@', by decide, by decide⟩
  have built : compile true tree = .ok roleAndMarkProgram := rfl
  have compiled := EngineOptions.compile_ok.mpr ⟨_, parsed, built⟩
  have ran : (engine.machine roleAndMarkProgram).run roleAndMarkProgram.words () =
      (.ok [.string "admin!"], ()) := by
    rw [Machine.run, Machine.runFrom_of_moved rfl, Machine.runFrom_of_moved rfl,
      Machine.runFrom_of_moved rfl, Machine.runFrom_of_moved rfl, Machine.runFrom_nil]
    rfl
  exact ⟨parsed, supplied, marked, compiled, ran,
    (eval_ends_as_foreseen engine source ()).2.2 _ _ _ _ parsed supplied marked compiled ran⟩

end PredicateLang
