import PredicateLang.Proofs.Compilation.References
import PredicateLang.Proofs.Compilation.Safety

set_option autoImplicit false

namespace PredicateLang

inductive Request (ω : Type)
  | register (name : String) (producer : Producer ω)
  | resolve (name : String)
  | list
  | run (program : Program) (limit : Nat)

inductive Reply
  | registered
  | resolved (value : Option (Except BridgeFault Value))
  | listed (names : List String)
  | ran (result : Except RuntimeFault (Option Value))

structure Host (ω : Type) where
  bindings : Bindings ω
  world : ω

namespace Request

variable {ω : Type}

def recorded : Request ω → Request (List (Call ω) × ω)
  | .register name producer => .register name (producer.recorded name)
  | .resolve name => .resolve name
  | .list => .list
  | .run program limit => .run program limit

def registers? (name : String) : Request ω → Option (Producer ω)
  | .register other producer => if name = other then some producer else none
  | _ => none

end Request

def lastRegistered? {ω : Type} (name : String) (requests : List (Request ω)) : Option (Producer ω) :=
  requests.reverse.findSome? (Request.registers? name)

theorem lastRegistered?_cons {ω : Type} (name : String) (request : Request ω)
    (rest : List (Request ω)) :
    lastRegistered? name (request :: rest) =
      (lastRegistered? name rest).or (request.registers? name) := by
  rw [lastRegistered?, List.reverse_cons, List.findSome?_append, List.findSome?_singleton,
    lastRegistered?]

namespace Host

variable {ω : Type} (host : Host ω)

def perform : Request ω → Reply × Host ω
  | .register name producer =>
      (.registered, { host with bindings := host.bindings.register name producer })
  | .resolve name =>
      match host.bindings.resolve name host.world with
      | none => (.resolved none, host)
      | some (result, after) => (.resolved (some result), { host with world := after })
  | .list => (.listed host.bindings.names, host)
  | .run program limit =>
      match program.run host.bindings limit host.world with
      | (result, after) => (.ran result, { host with world := after })

def serve (host : Host ω) : List (Request ω) → List Reply × Host ω
  | [] => ([], host)
  | request :: rest =>
      let (answer, next) := host.perform request
      let (answers, last) := next.serve rest
      (answer :: answers, last)

/-- The calls for one request: one to resolve a name, and those of a run. -/
def callsFor : Request ω → List (Call ω)
  | .register _ _ | .list => []
  | .resolve name => host.bindings.callsTo name
  | .run program limit =>
      program.calls host.bindings (program.run host.bindings limit host.world).1

def calls (host : Host ω) : List (Request ω) → List (Call ω)
  | [] => []
  | request :: rest => host.callsFor request ++ (host.perform request).2.calls rest

def recorded (log : List (Call ω)) : Host (List (Call ω) × ω) := ⟨host.bindings.recorded, (log, host.world)⟩

theorem tallies_perform (request : Request ω) (log : List (Call ω)) :
    (host.recorded log).perform request.recorded =
        ((host.perform request).1, (host.perform request).2.recorded (log ++ host.callsFor request)) ∧
      (host.perform request).2.world = replay (host.callsFor request) host.world := by
  cases request with
  | register name producer =>
      refine ⟨?_, rfl⟩
      simp only [perform, recorded, Request.recorded, callsFor, List.append_nil,
        Bindings.register_recorded]
  | list =>
      refine ⟨?_, rfl⟩
      simp only [perform, recorded, Request.recorded, callsFor, List.append_nil,
        Bindings.names_recorded]
  | resolve name =>
      simp only [perform, recorded, Request.recorded, callsFor, Bindings.resolve, Bindings.callsTo,
        Bindings.find?_recorded]
      cases host.bindings.find? name with
      | none => exact ⟨by simp, rfl⟩
      | some producer => exact ⟨rfl, rfl⟩
  | run program limit =>
      have tallies := @tallies_run ω host.bindings limit host.world program log
      constructor
      · simp only [perform, recorded, Request.recorded, callsFor]
        rw [tallies.same]
      · exact tallies.replayed

theorem find?_perform (request : Request ω) (name : String) :
    (host.perform request).2.bindings.find? name =
      (request.registers? name).or (host.bindings.find? name) := by
  cases request with
  | register other producer =>
      simp only [perform, Request.registers?]
      by_cases same : name = other
      · simp [same]
      · rw [Bindings.find?_register_of_ne same, if_neg same, Option.none_or]
  | resolve other =>
      simp only [perform, Request.registers?]
      cases host.bindings.resolve other host.world <;> rfl
  | list | run => rfl

theorem found_of_call {request : Request ω} {call : Call ω} (called : call ∈ host.callsFor request) :
    host.bindings.find? call.1 = some call.2 := by
  cases request with
  | register | list => cases called
  | resolve name =>
      obtain ⟨producer, found, rfl⟩ := Option.map_eq_some_iff.mp (Option.mem_toList.mp called)
      exact found
  | run program limit => exact PredicateLang.found_of_call called

theorem serve_cons (request : Request ω) (rest : List (Request ω)) :
    host.serve (request :: rest) =
      ((host.perform request).1 :: ((host.perform request).2.serve rest).1,
        ((host.perform request).2.serve rest).2) := rfl

theorem tallies_serve (host : Host ω) (requests : List (Request ω)) (log : List (Call ω)) :
    (host.recorded log).serve (requests.map Request.recorded) =
        ((host.serve requests).1, (host.serve requests).2.recorded (log ++ host.calls requests)) ∧
      (host.serve requests).2.world = replay (host.calls requests) host.world := by
  induction requests generalizing host log with
  | nil => exact ⟨by simp [serve, calls], rfl⟩
  | cons request rest ih =>
      obtain ⟨same, replayed⟩ := host.tallies_perform request log
      obtain ⟨sameRest, replayedRest⟩ := ih (host.perform request).2 (log ++ host.callsFor request)
      constructor
      · rw [List.map_cons, serve_cons, same]
        simp only [sameRest, serve_cons, calls, List.append_assoc]
      · rw [serve_cons, replayedRest, replayed, calls, replay, replay, replay, List.foldl_append]

theorem find?_serve (host : Host ω) (requests : List (Request ω)) (name : String) :
    (host.serve requests).2.bindings.find? name =
      (lastRegistered? name requests).or (host.bindings.find? name) := by
  induction requests generalizing host with
  | nil => rfl
  | cons request rest ih =>
      rw [serve_cons, ih, find?_perform, lastRegistered?_cons, Option.or_assoc]

theorem calls_append (host : Host ω) (before rest : List (Request ω)) :
    host.calls (before ++ rest) = host.calls before ++ (host.serve before).2.calls rest := by
  induction before generalizing host with
  | nil => rfl
  | cons request before ih =>
      rw [List.cons_append, calls, ih, calls, serve_cons, List.append_assoc]

end Host

def Engine.recorded {ω : Type} (engine : Engine ω) : Engine (List (Call ω) × ω) :=
  ⟨engine.options, engine.bindings.recorded⟩

theorem tallies_eval {ω : Type} (engine : Engine ω) {source : String} {root : Node} {world : ω}
    {v : Option Value} (parsed : engine.options.parse source = .ok root)
    (few : constantCount root < UInt32.size) (done : (engine.eval source world).1 = .ok v)
    (log : List (Call ω)) :
    ∃ calls : List (Call ω), calls.map Prod.fst = root.references ∧
      (∀ call ∈ calls, engine.bindings.find? call.1 = some call.2) ∧
      engine.recorded.eval source (log, world) =
        (.ok v, log ++ calls, (engine.eval source world).2) := by
  obtain ⟨program, compiled, ran⟩ := Engine.run_of_eval done nofun
  have compiled' : engine.recorded.options.compile source = .ok program := compiled
  have tallies := @tallies_run ω engine.bindings engine.options.maxStack world program log
  have succeeded : (program.run engine.bindings engine.options.maxStack world).1 = .ok v := by
    obtain ⟨stack, stopped, rfl⟩ := Engine.stack_of_run ran
    exact congrArg (Except.map List.head?) stopped
  refine ⟨_, (names_of_run succeeded).trans (asked_compiled parsed compiled few),
    fun call called => found_of_call called, ?_⟩
  rw [engine.recorded.eval_of_compiled compiled', engine.eval_of_compiled compiled]
  simp only [Engine.run, Engine.recorded]
  rw [tallies.same, succeeded]
  rfl

/-- A run calls one producer for every reference with a bound name that it comes to, the one that was last
registered under that name, and resolving a name calls one too. Nothing else calls any, and the world changes
by these calls only. A text that is evaluated has them called for its external names, from left to right. -/
theorem producers_called_per_reference :
    (∀ {ω : Type} (host : Host ω) (requests : List (Request ω)) (log : List (Call ω)),
      (host.recorded log).serve (requests.map Request.recorded) =
          ((host.serve requests).1, (host.serve requests).2.recorded (log ++ host.calls requests)) ∧
      (host.serve requests).2.world = replay (host.calls requests) host.world ∧
      (∀ name, (host.serve requests).2.bindings.find? name =
        (lastRegistered? name requests).or (host.bindings.find? name)) ∧
      ∀ before request after, requests = before ++ request :: after →
        (∃ later, host.calls requests =
          host.calls before ++ ((host.serve before).2.callsFor request ++ later)) ∧
        ∀ call ∈ (host.serve before).2.callsFor request,
          (lastRegistered? call.1 before).or (host.bindings.find? call.1) = some call.2) ∧
    ∀ {ω : Type} (engine : Engine ω) (source : String) (root : Node) (world : ω) (v : Option Value)
        (log : List (Call ω)),
      engine.options.parse source = .ok root → constantCount root < UInt32.size →
      (engine.eval source world).1 = .ok v →
      ∃ tokens calls, engine.options.tokenize source = .ok tokens ∧
        calls.map Prod.fst = externals tokens ∧
        (∀ call ∈ calls, engine.bindings.find? call.1 = some call.2) ∧
        engine.recorded.eval source (log, world) =
          (.ok v, log ++ calls, (engine.eval source world).2) := by
  constructor
  · intro ω host requests log
    obtain ⟨same, replayed⟩ := host.tallies_serve requests log
    refine ⟨same, replayed, host.find?_serve requests, ?_⟩
    rintro before request after rfl
    refine ⟨⟨_, host.calls_append before (request :: after)⟩, fun call called => ?_⟩
    rw [← host.find?_serve before]
    exact (host.serve before).2.found_of_call called
  · intro ω engine source root world v log parsed few done
    obtain ⟨tokens, tokenized, references⟩ := references_of_parse (EngineOptions.parse_ok.mp parsed)
    obtain ⟨calls, names, found, recorded⟩ := tallies_eval engine parsed few done log
    refine ⟨tokens, calls, ?_, names.trans references, found, recorded⟩
    simp only [EngineOptions.tokenize, tokenized]
    rfl

-- The tree of `@n == @n`, and its program.
def counterTwice : Node :=
  let counter (position : Position) : Node :=
    .primitive position (.identifier position ⟨true, "n", []⟩)
  .program .start [.compare ⟨1, 3, 3⟩ .equality .eq (counter .start) (counter ⟨1, 6, 6⟩)]

def counterTwiceProgram : Program :=
  ⟨[1, 0, 1, 1, 24], [.dataRef "n" .static, .dataRef "n" .static]⟩

def countingEngine : Engine (List Int64) :=
  (Engine.ofOptions .default).register "n" (Producer.counting 0)

theorem parse_counter_twice :
    parse (Scanner.ofString true "@n == @n") = .ok counterTwice := by
  let counter (column : UInt32) : Grammar.Leaf :=
    .external ⟨.atSign, ⟨1, column, column⟩, "@"⟩ ⟨.identifier, ⟨1, column + 1, column + 1⟩, "n"⟩ []
      rfl rfl
  let compared : Grammar.Behind Grammar.EqualityOperator Grammar.ordering :=
    ⟨[.space 2], ⟨.equalityOp, ⟨1, 3, 3⟩, "=="⟩, [.space 5], _, ((((counter 6, none), none), []), none),
      Grammar.blanks_space 2, .eq rfl rfl, Grammar.blanks_space 5⟩
  let derivation : Grammar.Program :=
    .expression [] (((((((counter 0, none), none), []), none), some compared), none), none) []
      ⟨.eof, ⟨1, 8, 8⟩, ""⟩ (List.forall_mem_nil _) (List.forall_mem_nil _) rfl
  exact parse_of_rules 8 derivation (by decide +kernel) (by decide)

theorem eval_counter_twice : countingEngine.eval "@n == @n" [7] =
    (.ok (some (compareResult .eq (.int 7) (.int 8))), [9]) := by
  have parsed : countingEngine.options.parse "@n == @n" = .ok counterTwice :=
    EngineOptions.parse_ok.mpr parse_counter_twice
  have built : compile true counterTwice = .ok counterTwiceProgram := rfl
  rw [countingEngine.eval_of_compiled (EngineOptions.compile_ok.mpr ⟨_, parsed, built⟩), Engine.run_machine,
    Machine.run, Machine.runFrom_of_moved rfl, Machine.runFrom_of_moved rfl, Machine.runFrom_of_moved rfl,
    Machine.runFrom_nil]
  rfl

theorem counter_called_twice :
    countingEngine.options.parse "@n == @n" = .ok counterTwice ∧
      constantCount counterTwice < UInt32.size ∧
      (∃ v, (countingEngine.eval "@n == @n" [7]).1 = .ok v) ∧
      ∃ tokens calls, countingEngine.options.tokenize "@n == @n" = .ok tokens ∧
        calls.map Prod.fst = externals tokens ∧
        (∀ call ∈ calls, countingEngine.bindings.find? call.1 = some call.2) ∧
        (countingEngine.recorded.eval "@n == @n" ([], [7])).2.1 = [] ++ calls := by
  have parsed : countingEngine.options.parse "@n == @n" = .ok counterTwice :=
    EngineOptions.parse_ok.mpr parse_counter_twice
  have few : constantCount counterTwice < UInt32.size := by decide
  have done := congrArg Prod.fst eval_counter_twice
  obtain ⟨tokens, calls, tokenized, names, found, recorded⟩ :=
    producers_called_per_reference.2 countingEngine _ _ _ _ [] parsed few done
  exact ⟨parsed, few, ⟨_, done⟩, tokens, calls, tokenized, names, found, by rw [recorded]⟩

end PredicateLang
