import PredicateLang.Proofs.Compilation.Safety

set_option autoImplicit false

namespace PredicateLang

section

variable {ω : Type} (engine : Engine ω)

theorem eval_not_overflow {source : String} {world : ω} (room : 8 ≤ engine.options.maxStack)
    (pc limit : Nat) : (engine.eval source world).1 ≠ .error (.running ⟨pc, .stackOverflow limit⟩) := by
  intro failed
  obtain ⟨node, -, parsed, foreseen⟩ := foreseen_of_eval failed
  have shallow := parsed.shallow
  cases foreseen with
  | overflow low => omega

theorem height_of_source {source : String} {program : Program}
    (compiled : engine.options.compile source = .ok program) {world : ω} {c : Config ω}
    (reached : (engine.machine program).Reaches ⟨0, program.words, [], world⟩ c) :
    c.stack.length ≤ 8 := by
  rcases compiled_of_source compiled with
    ⟨rfl, -⟩ | ⟨node, visits, last, -, parsed, climbs⟩
  · rcases Machine.height_of_reaches .nil reached with ⟨visit, visited, -⟩ | height
    · cases visited
    · omega
  · have shallow := parsed.shallow
    have top := climbs.heights.top
    rcases Machine.height_of_reaches climbs.passage reached with ⟨visit, visited, height⟩ | height
    · have low := (climbs.heights.low visit visited).1
      omega
    · omega

end

def loads (kind : LoadKind) (indices : List UInt32) : List UInt32 :=
  indices.flatMap fun index => [(Opcode.load kind).word, index]

theorem Machine.overflow_of_loads {ω : Type} {m : Machine ω} {kind : LoadKind} {indices : List UInt32}
    (held : ∀ index ∈ indices, ∃ constant, m.constants[index.toNat]? = some constant ∧
      kind.accepts constant.kind = true)
    {stack : Stack} (fits : stack.length ≤ m.limit) (beyond : m.limit < stack.length + indices.length)
    (rest : List UInt32) (pc : Nat) (world : ω) :
    ∃ pc', m.runFrom ⟨pc, loads kind indices ++ rest, stack, world⟩ =
      (.error ⟨pc', .stackOverflow m.limit⟩, world) := by
  induction indices generalizing stack pc with
  | nil =>
      rw [List.length_nil] at beyond
      omega
  | cons index indices ih =>
      obtain ⟨constant, found, suits⟩ := held index List.mem_cons_self
      have fetched : fetch m.constants (Opcode.load kind).word
          (index :: (loads kind indices ++ rest)) =
            .ok ⟨.load kind, some constant, loads kind indices ++ rest⟩ := by
        rw [fetch_withOperand (Opcode.ofWord?_word _) rfl, found]
        rfl
      have performed : m.perform ⟨.load kind, some constant, []⟩ stack world =
          (Made.settle m.limit (.ok (some constant, stack)), world) := by
        have other : Opcode.load kind ≠ .getStatic := Opcode.noConfusion
        rw [m.perform_of_ne other]
        simp only [Opcode.perform, loadOf, suits, if_true]
        rfl
      have step := m.step_fetched fetched performed pc
      have code : loads kind (index :: indices) ++ rest =
          (Opcode.load kind).word :: index :: (loads kind indices ++ rest) := by simp [loads]
      rw [code]
      by_cases room : stack.length < m.limit
      · have pushed : Made.settle m.limit (.ok (some constant, stack)) = .ok (constant :: stack) :=
          push_eq_ok.mpr ⟨room, rfl⟩
        rw [settle, pushed] at step
        rw [runFrom_of_moved step]
        rw [List.length_cons] at beyond
        refine ih (fun index later => held index (List.mem_cons_of_mem _ later)) ?_ ?_ _
        · exact room
        · rw [List.length_cons]
          omega
      · have full : Made.settle m.limit (.ok (some constant, stack)) = .error (.stackOverflow m.limit) := by
          simp [Made.settle, Stack.push, Nat.not_lt.mp room]
        rw [settle, full] at step
        exact ⟨pc, runFrom_of_stopped step⟩

-- Every level of operators has a text on its left that waits for all the levels below.
def deepText : String := "\"a\" or \"a\" and \"a\" == \"a\" < \"a\" + \"a\" * \"a\" ** \"a\""

def deepLeaf (column : UInt32) : Node :=
  .primitive ⟨1, column, column⟩ (.literal ⟨1, column, column⟩ .string "a")

def deepTree : Node :=
  .program .start [.logical ⟨1, 4, 4⟩ .or (deepLeaf 0) <|
    .logical ⟨1, 11, 11⟩ .and (deepLeaf 7) <|
      .compare ⟨1, 19, 19⟩ .equality .eq (deepLeaf 15) <|
        .compare ⟨1, 26, 26⟩ .ordering .lt (deepLeaf 22) <|
          .arith ⟨1, 32, 32⟩ .add (deepLeaf 28) <|
            .arith ⟨1, 38, 38⟩ .mul (deepLeaf 34) <|
              .arith ⟨1, 44, 44⟩ .pow (deepLeaf 40) (deepLeaf 47)]

def deepProgram : Program :=
  ⟨loads .string [0, 1, 2, 3, 4, 5, 6, 7] ++ [21, 18, 23, 28, 24, 10, 11],
    List.replicate 8 (.string "a")⟩

theorem parse_deep (keywordBoundary : Bool) :
    parse (Scanner.ofString keywordBoundary deepText) = .ok deepTree := by
  let text (column : UInt32) : Grammar.Leaf := .string ⟨.string, ⟨1, column, column⟩, "a"⟩ rfl
  let blank := Grammar.blanks_space
  let power : Grammar.Behind Grammar.PowerOperator Grammar.primitive :=
    ⟨[.space 43], ⟨.pow, ⟨1, 44, 44⟩, "**"⟩, [.space 46], _, text 47, blank 43, .pow rfl, blank 46⟩
  let product : Grammar.Behind Grammar.ProductOperator Grammar.power :=
    ⟨[.space 37], ⟨.mult, ⟨1, 38, 38⟩, "*"⟩, [.space 39], _, (text 40, some power), blank 37,
      .mul rfl, blank 39⟩
  let sum : Grammar.Behind Grammar.SumOperator Grammar.product :=
    ⟨[.space 31], ⟨.add, ⟨1, 32, 32⟩, "+"⟩, [.space 33], _, ((text 34, none), some product),
      blank 31, .add rfl, blank 33⟩
  let ordering : Grammar.Behind Grammar.OrderOperator Grammar.sum :=
    ⟨[.space 25], ⟨.comparisonOp, ⟨1, 26, 26⟩, "<"⟩, [.space 27], _,
      (((text 28, none), none), [sum]), blank 25, .lt rfl rfl, blank 27⟩
  let equality : Grammar.Behind Grammar.EqualityOperator Grammar.ordering :=
    ⟨[.space 18], ⟨.equalityOp, ⟨1, 19, 19⟩, "=="⟩, [.space 21], _,
      ((((text 22, none), none), []), some ordering), blank 18, .eq rfl rfl, blank 21⟩
  let conjunction : Grammar.Behind Grammar.AndOperator Grammar.equality :=
    ⟨[.space 10], ⟨.conjunction, ⟨1, 11, 11⟩, "and"⟩, [.space 14], _,
      (((((text 15, none), none), []), none), some equality), blank 10, .and rfl, blank 14⟩
  let disjunction : Grammar.Behind Grammar.OrOperator Grammar.conjunction :=
    ⟨[.space 3], ⟨.disjunction, ⟨1, 4, 4⟩, "or"⟩, [.space 6], _,
      ((((((text 7, none), none), []), none), none), some conjunction), blank 3, .or rfl, blank 6⟩
  let derivation : Grammar.Program :=
    .expression [] (((((((text 0, none), none), []), none), none), none), some disjunction) []
      ⟨.eof, ⟨1, 50, 50⟩, ""⟩ (List.forall_mem_nil _) (List.forall_mem_nil _) rfl
  exact parse_of_rules 30 derivation (by cases keywordBoundary <;> decide +kernel) (by decide +kernel)

theorem compile_deep (options : EngineOptions) : options.compile deepText = .ok deepProgram := by
  have built (validate : Bool) : compile validate deepTree = .ok deepProgram := by
    cases validate <;> rfl
  exact EngineOptions.compile_ok.mpr
    ⟨_, EngineOptions.parse_ok.mpr (parse_deep options.keywordBoundary), built options.validate⟩

theorem eval_deep {ω : Type} (engine : Engine ω) (world : ω) (low : engine.options.maxStack < 8) :
    ∃ pc, (engine.eval deepText world).1 =
      .error (.running ⟨pc, .stackOverflow engine.options.maxStack⟩) := by
  have few : ∀ index ∈ ([0, 1, 2, 3, 4, 5, 6, 7] : List UInt32), index.toNat < 8 := by simp
  have there : ∀ index ∈ ([0, 1, 2, 3, 4, 5, 6, 7] : List UInt32),
      deepProgram.constants[index.toNat]? = some (.string "a") := by
    intro index among
    rw [deepProgram, List.getElem?_replicate, if_pos (few index among)]
  have beyond : engine.options.maxStack < ([] : Stack).length + 8 := low
  obtain ⟨pc, ran⟩ := @Machine.overflow_of_loads _ (engine.machine deepProgram) .string _
    (fun index among => ⟨_, there index among, rfl⟩) [] (Nat.zero_le _) beyond
    [21, 18, 23, 28, 24, 10, 11] 0 world
  refine ⟨pc, ?_⟩
  rw [engine.eval_of_compiled (compile_deep engine.options), engine.run_machine, Machine.run]
  exact congrArg (fun ended : Except RuntimeFault Stack × ω =>
    (ended.1.map List.head?).mapError EngineFault.running) ran

/-- No text needs a stack of more than eight operands, and no fewer are enough for all texts. -/
theorem eight_operands_suffice :
    (∀ {ω : Type} (engine : Engine ω) (source : String) (world : ω), 8 ≤ engine.options.maxStack →
      ∀ pc limit, (engine.eval source world).1 ≠ .error (.running ⟨pc, .stackOverflow limit⟩)) ∧
    (∀ {ω : Type} (engine : Engine ω) (source : String) (program : Program),
      engine.options.compile source = .ok program → ∀ (world : ω) (c : Config ω),
        (engine.machine program).Reaches ⟨0, program.words, [], world⟩ c → c.stack.length ≤ 8) ∧
    ∃ source, ∀ {ω : Type} (engine : Engine ω) (world : ω), engine.options.maxStack < 8 →
      ∃ pc, (engine.eval source world).1 =
        .error (.running ⟨pc, .stackOverflow engine.options.maxStack⟩) :=
  ⟨fun engine _ _ room => eval_not_overflow engine room,
    fun engine _ _ compiled _ _ reached => height_of_source engine compiled reached,
    deepText, eval_deep⟩

theorem deep_text_in_eight :
    let engine : Engine Unit := .ofOptions .default
    8 ≤ engine.options.maxStack ∧ engine.options.compile deepText = .ok deepProgram ∧
      (∀ pc limit, (engine.eval deepText ()).1 ≠ .error (.running ⟨pc, .stackOverflow limit⟩)) ∧
      ∀ c, (engine.machine deepProgram).Reaches ⟨0, deepProgram.words, [], ()⟩ c → c.stack.length ≤ 8 := by
  intro engine
  obtain ⟨never, low, -⟩ := eight_operands_suffice
  have room : 8 ≤ engine.options.maxStack := by decide
  have compiled := compile_deep engine.options
  exact ⟨room, compiled, never engine deepText () room, low engine deepText deepProgram compiled ()⟩

end PredicateLang
