import PredicateLang.Engine
import PredicateLang.Proofs.Machine.Segments

set_option autoImplicit false

namespace PredicateLang

section

variable {α ε ε' : Type} {x : Except ε α} {f : ε → ε'}

theorem mapError_ok {a : α} : x.mapError f = .ok a ↔ x = .ok a := by
  constructor
  · intro same
    cases x with
    | error early => cases same
    | ok b =>
        cases same
        rfl
  · rintro rfl
    rfl

theorem error_of_mapError {fault : ε'} (failed : x.mapError f = .error fault) :
    ∃ early, x = .error early ∧ f early = fault := by
  cases x with
  | error early =>
      cases failed
      exact ⟨early, rfl, rfl⟩
  | ok a => cases failed

end

namespace EngineOptions

variable {options : EngineOptions} {source : String} {program : Program}

theorem parse_ok {root : Node} : options.parse source = .ok root ↔
    PredicateLang.parse (Scanner.ofString options.keywordBoundary source) = .ok root :=
  mapError_ok

theorem compile_ok : options.compile source = .ok program ↔
    ∃ root, options.parse source = .ok root ∧ PredicateLang.compile options.validate root = .ok program := by
  cases parsed : options.parse source with
  | error fault => simp [compile, parsed, bind, Except.bind]
  | ok root => simp [compile, parsed, bind, Except.bind, mapError_ok]

theorem compile_error {fault : EngineFault} (failed : options.compile source = .error fault) :
    (∃ early, fault = .ofParse early) ∨ ∃ early, fault = .compiling early := by
  cases parsed : options.parse source with
  | error early =>
      simp only [compile, parsed, bind, Except.bind] at failed
      cases failed
      obtain ⟨cause, -, same⟩ := error_of_mapError parsed
      exact .inl ⟨cause, same.symm⟩
  | ok root =>
      simp only [compile, parsed, bind, Except.bind] at failed
      obtain ⟨cause, -, same⟩ := error_of_mapError failed
      exact .inr ⟨cause, same.symm⟩

theorem compile_not_running {fault : EngineFault} (failed : options.compile source = .error fault)
    (cause : RuntimeFault) : fault ≠ .running cause := by
  rcases compile_error failed with ⟨early, rfl⟩ | ⟨early, rfl⟩
  · cases early <;> exact EngineFault.noConfusion
  · exact EngineFault.noConfusion

end EngineOptions

namespace Engine

variable {ω : Type} (engine : Engine ω)

def machine (program : Program) : Machine ω :=
  ⟨program.constants, engine.bindings, engine.options.maxStack⟩

theorem run_machine (program : Program) (world : ω) :
    engine.run program world =
      ((((engine.machine program).run program.words world).1.map List.head?).mapError .running,
        ((engine.machine program).run program.words world).2) := rfl

theorem run_empty (world : ω) : engine.run .empty world = (.ok none, world) := by
  have ended : (engine.machine .empty).run Program.empty.words world = (.ok [], world) :=
    (engine.machine .empty).runFrom_nil 0 [] world
  rw [run_machine, ended]
  rfl

theorem eval_of_compiled {source : String} {program : Program}
    (compiled : engine.options.compile source = .ok program) (world : ω) :
    engine.eval source world = engine.run program world := by
  simp only [eval, compiled]

variable {engine}

theorem run_of_eval {source : String} {world : ω} {result : Except EngineFault (Option Value)}
    (ended : (engine.eval source world).1 = result)
    (late : ∀ fault, engine.options.compile source = .error fault → result ≠ .error fault) :
    ∃ program, engine.options.compile source = .ok program ∧ (engine.run program world).1 = result := by
  cases compiled : engine.options.compile source with
  | error fault =>
      refine absurd ?_ (late fault compiled)
      rw [← ended]
      simp only [eval, compiled]
  | ok program =>
      rw [engine.eval_of_compiled compiled] at ended
      exact ⟨program, rfl, ended⟩

theorem fault_of_run {program : Program} {world : ω} {fault : RuntimeFault}
    (failed : (engine.run program world).1 = .error (.running fault)) :
    ((engine.machine program).run program.words world).1 = .error fault := by
  rw [run_machine] at failed
  obtain ⟨other, stopped, same⟩ := error_of_mapError failed
  cases same
  cases ran : ((engine.machine program).run program.words world).1 with
  | error cause =>
      rw [ran] at stopped
      cases stopped
      rfl
  | ok stack =>
      rw [ran] at stopped
      cases stopped

theorem stack_of_run {program : Program} {world : ω} {v : Option Value}
    (done : (engine.run program world).1 = .ok v) :
    ∃ stack, ((engine.machine program).run program.words world).1 = .ok stack ∧ stack.head? = v := by
  rw [run_machine] at done
  have top := mapError_ok.mp done
  cases ran : ((engine.machine program).run program.words world).1 with
  | error cause =>
      rw [ran] at top
      cases top
  | ok stack =>
      rw [ran] at top
      cases top
      exact ⟨stack, rfl, rfl⟩

end Engine

end PredicateLang
