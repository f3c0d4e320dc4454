import Mathlib.Data.List.Basic
import PredicateLang.Evaluation
import PredicateLang.Proofs.Machine.Validation

set_option autoImplicit false

namespace PredicateLang

namespace Machine

variable {ω : Type} {m : Machine ω}

theorem Reaches.length_code_le {c last : Config ω} (h : m.Reaches c last) :
    last.code.length ≤ c.code.length := by
  induction h with
  | refl => exact Nat.le_refl _
  | tail _ moved ih => exact Nat.le_trans (Nat.le_of_lt (length_code_lt moved)) ih

theorem Reaches.moved {c last : Config ω} (h : m.Reaches c last)
    (shorter : last.code.length < c.code.length) :
    ∃ middle, m.step c = .moved middle ∧ m.Reaches middle last := by
  rcases h.cases_head with rfl | moved
  · omega
  · exact moved

theorem Reaches.eq_of_code {c last : Config ω} (h : m.Reaches c last) (same : last.code = c.code) :
    last = c := by
  rcases h.cases_head with rfl | ⟨middle, moved, more⟩
  · rfl
  · have shorter := length_code_lt moved
    have shortest := Reaches.length_code_le more
    rw [same] at shortest
    omega

theorem moved_of_fetched {op : Opcode} {constant : Option Value} {word : UInt32}
    {rest next : List UInt32} (found : fetch m.constants word rest = .ok ⟨op, constant, next⟩)
    {pc : Nat} {stack : Stack} {world : ω} {c : Config ω}
    (moved : m.step ⟨pc, word :: rest, stack, world⟩ = .moved c) :
    ∃ pushed after, m.act pc op constant stack world = (.ok pushed, after) ∧
      c = ⟨pc + op.width, next, pushed, after⟩ := by
  have same : m.perform ⟨op, constant, next⟩ = m.perform ⟨op, constant, []⟩ := rfl
  simp only [step, found, same] at moved
  rw [act]
  generalize m.perform ⟨op, constant, []⟩ stack world = performed at moved ⊢
  rcases performed with ⟨cause | pushed, after⟩
  · cases moved
  · cases moved
    exact ⟨pushed, after, rfl, rfl⟩

theorem runFrom_of_reaches {first second : List UInt32} (whole : Whole first) {pc pc' : Nat}
    {stack last : Stack} {world after : ω}
    (h : m.Reaches ⟨pc, first ++ second, stack, world⟩ ⟨pc', second, last, after⟩) :
    m.runFrom ⟨pc, first, stack, world⟩ = (.ok last, after) := by
  induction whole generalizing pc stack world with
  | nil =>
      cases h.eq_of_code rfl
      exact runFrom_nil m pc' last after
  | @plain word op rest known alone _ ih =>
      have shorter : second.length < (word :: rest ++ second).length := by
        rw [List.length_append, List.length_cons]
        omega
      obtain ⟨middle, moved, more⟩ := h.moved shorter
      obtain ⟨pushed, between, acted, rfl⟩ :=
        moved_of_fetched (fetch_plain known alone m.constants (rest ++ second)) moved
      rw [runFrom_fetched m (fetch_plain known alone m.constants rest), acted]
      exact ih more
  | @withOperand word index op rest known followed _ ih =>
      have shorter : second.length < (word :: index :: rest ++ second).length := by
        rw [List.length_append, List.length_cons]
        omega
      obtain ⟨middle, moved, more⟩ := h.moved shorter
      have fetched (more : List UInt32) := fetch_withOperand known followed m.constants index more
      cases held : m.constants[index.toNat]? with
      | none =>
          -- A constant that is not there would have stopped the machine.
          simp only [held] at fetched
          have stops : m.step ⟨pc, word :: index :: rest ++ second, stack, world⟩ =
              .stopped (.error ⟨pc, .constantOutOfRange (some index)⟩) world := by
            simp only [List.cons_append, step, fetched (rest ++ second)]
            rfl
          cases stops.symm.trans moved
      | some constant =>
          simp only [held] at fetched
          obtain ⟨pushed, between, acted, rfl⟩ := moved_of_fetched (fetched (rest ++ second)) moved
          rw [runFrom_fetched m (fetched rest), acted]
          exact ih more

theorem causes_ok {ended : Except RuntimeFault Stack × ω} {stack : Stack} {after : ω} :
    causes ended = (.ok stack, after) ↔ ended = (.ok stack, after) := by
  rcases ended with ⟨fault | last, world⟩ <;> simp [causes, Except.mapError]

theorem runFrom_append_ok {first second : List UInt32} (whole : Whole first) {pc : Nat}
    {stack last : Stack} {world after : ω} :
    m.runFrom ⟨pc, first ++ second, stack, world⟩ = (.ok last, after) ↔
      ∃ middle between, m.runFrom ⟨pc, first, stack, world⟩ = (.ok middle, between) ∧
        m.runFrom ⟨pc + first.length, second, middle, between⟩ = (.ok last, after) := by
  rw [runFrom_append m whole]
  rcases m.runFrom ⟨pc, first, stack, world⟩ with ⟨fault | middle, between⟩
  · simp [goOn]
  · constructor
    · exact fun ran => ⟨middle, between, rfl, ran⟩
    · rintro ⟨middle', between', same, ran⟩
      cases same
      exact ran

theorem runFrom_operation_ok {op : Opcode} (alone : op.hasOperand = false) {pc : Nat}
    {stack last : Stack} {world after : ω} :
    m.runFrom ⟨pc, [op.word], stack, world⟩ = (.ok last, after) ↔
      op.perform none m.limit stack = .ok last ∧ world = after := by
  have other : op ≠ .getStatic := by
    rintro rfl
    cases alone
  rw [← causes_ok, m.causes_operation alone, m.perform_of_ne other, Prod.mk.injEq]

theorem runFrom_reference_ok {op : Opcode} (followed : op.hasOperand = true) {index : UInt32}
    {pc : Nat} {stack last : Stack} {world after : ω} :
    m.runFrom ⟨pc, [op.word, index], stack, world⟩ = (.ok last, after) ↔
      ∃ constant, m.constants[index.toNat]? = some constant ∧
        m.perform ⟨op, some constant, []⟩ stack world = (.ok last, after) := by
  cases held : m.constants[index.toNat]? with
  | none =>
      have failed : fetch m.constants op.word [index] = .error (.constantOutOfRange (some index)) := by
        rw [fetch_withOperand (Opcode.ofWord?_word op) followed, held]
        rfl
      simp [runFrom_unfetched m failed]
  | some constant =>
      simp only [Option.some.injEq, exists_eq_left']
      rw [← causes_ok, m.causes_reference followed held, ← m.causes_act pc]
      rcases m.act pc op (some constant) stack world with ⟨fault | pushed, between⟩ <;>
        simp [goOn, causes, Except.mapError]

def Takes (m : Machine ω) (count : Nat) (words : List UInt32) : Prop :=
  ∀ (taken : Stack) {pc stack world last after}, taken.length = count →
    m.runFrom ⟨pc, words, taken ++ stack, world⟩ = (.ok last, after) →
      after = world ∧ ∃ v, last = v :: stack ∧ ∀ pc' (below : Stack) world',
        below.length ≤ stack.length →
          m.runFrom ⟨pc', words, taken ++ below, world'⟩ = (.ok (v :: below), world')

theorem Takes.follow {count : Nat} {first second : List UInt32} (whole : Whole first)
    (one : m.Takes count first) (two : m.Takes 1 second) : m.Takes count (first ++ second) := by
  intro taken pc stack world last after size ran
  obtain ⟨middle, between, front, behind⟩ := (runFrom_append_ok whole).mp ran
  obtain ⟨rfl, v, rfl, again⟩ := one taken size front
  obtain ⟨rfl, w, rfl, more⟩ := two [v] rfl behind
  refine ⟨rfl, w, rfl, fun pc' below world' low => ?_⟩
  exact (runFrom_append_ok whole).mpr ⟨_, _, again pc' below world' low, more _ below world' low⟩

theorem Takes.operands {first second last : List UInt32} (wholeFirst : Whole first)
    (wholeSecond : Whole second) (one : m.Takes 0 first) (two : m.Takes 0 second)
    (three : m.Takes 2 last) : m.Takes 0 (first ++ (second ++ last)) := by
  intro taken pc stack world final after size ran
  obtain rfl := List.length_eq_zero_iff.mp size
  obtain ⟨middle, between, front, behind⟩ := (runFrom_append_ok wholeFirst).mp ran
  obtain ⟨rfl, v, rfl, left⟩ := one [] rfl front
  obtain ⟨middle, between, front', behind⟩ := (runFrom_append_ok wholeSecond).mp behind
  obtain ⟨rfl, w, rfl, right⟩ := two [] rfl front'
  obtain ⟨rfl, r, rfl, combine⟩ := three [w, v] rfl behind
  refine ⟨rfl, r, rfl, fun pc' below world' low => ?_⟩
  -- The right operand is found over one more than the left one.
  have lower : (v :: below).length ≤ (v :: stack).length := Nat.succ_le_succ low
  exact (runFrom_append_ok wholeFirst).mpr ⟨_, _, left pc' below world' low,
    (runFrom_append_ok wholeSecond).mpr ⟨_, _, right _ _ world' lower, combine _ below world' low⟩⟩

def Acts (m : Machine ω) (count : Nat) (op : Opcode) (constant : Option Value) : Prop :=
  ∀ (taken : Stack) {stack world last after}, taken.length = count →
    m.perform ⟨op, constant, []⟩ (taken ++ stack) world = (.ok last, after) →
      after = world ∧ ∃ v, last = v :: stack ∧ ∀ (below : Stack) world',
        below.length ≤ stack.length →
          m.perform ⟨op, constant, []⟩ (taken ++ below) world' = (.ok (v :: below), world')

theorem takes_operation {count : Nat} {op : Opcode} (alone : op.hasOperand = false)
    (acts : m.Acts count op none) : m.Takes count [op.word] := by
  have other : op ≠ .getStatic := by
    rintro rfl
    cases alone
  intro taken pc stack world last after size ran
  obtain ⟨performed, rfl⟩ := (runFrom_operation_ok alone).mp ran
  have acted : m.perform ⟨op, none, []⟩ (taken ++ stack) world = (.ok last, world) := by
    rw [m.perform_of_ne other, performed]
  obtain ⟨-, v, rfl, again⟩ := acts taken size acted
  refine ⟨rfl, v, rfl, fun pc' below world' low => (runFrom_operation_ok alone).mpr ⟨?_, rfl⟩⟩
  have result := again below world' low
  rw [m.perform_of_ne other, Prod.mk.injEq] at result
  exact result.1

theorem takes_reference {count : Nat} {op : Opcode} (followed : op.hasOperand = true)
    (acts : ∀ constant, m.Acts count op (some constant)) (index : UInt32) :
    m.Takes count [op.word, index] := by
  intro taken pc stack world last after size ran
  obtain ⟨constant, held, performed⟩ := (runFrom_reference_ok followed).mp ran
  obtain ⟨rfl, v, rfl, again⟩ := acts constant taken size performed
  exact ⟨rfl, v, rfl, fun pc' below world' low =>
    (runFrom_reference_ok followed).mpr ⟨constant, held, again below world' low⟩⟩

theorem push_eq_ok {limit : Nat} {v : Value} {stack last : Stack} :
    Stack.push limit v stack = .ok last ↔ stack.length < limit ∧ last = v :: stack := by
  unfold Stack.push
  split_ifs with full
  · simp [Nat.not_lt.mpr full]
  · simp [Nat.not_le.mp full, eq_comm]

theorem acts_of_result {count : Nat} {op : Opcode} {constant : Option Value}
    (other : op ≠ .getStatic)
    (results : ∀ taken : Stack, taken.length = count → ∃ result : Except RuntimeCause Value,
      ∀ stack, op.perform constant m.limit (taken ++ stack) =
        (do Stack.push m.limit (← result) stack)) :
    m.Acts count op constant := by
  intro taken stack world last after size performed
  obtain ⟨result, same⟩ := results taken size
  rw [m.perform_of_ne other, Prod.mk.injEq, same] at performed
  obtain ⟨pushed, rfl⟩ := performed
  cases result with
  | error cause => cases pushed
  | ok v =>
      obtain ⟨room, rfl⟩ := push_eq_ok.mp pushed
      refine ⟨rfl, v, rfl, fun below world' low => ?_⟩
      rw [m.perform_of_ne other, same]
      exact congrArg (·, world') (push_eq_ok.mpr ⟨Nat.lt_of_le_of_lt low room, rfl⟩)

theorem acts_load (kind : LoadKind) (constant : Value) : m.Acts 0 (.load kind) (some constant) := by
  refine acts_of_result Opcode.noConfusion fun taken size => ?_
  obtain rfl := List.length_eq_zero_iff.mp size
  cases suits : kind.accepts constant.kind with
  | true => exact ⟨.ok constant, fun stack => by simp [Opcode.perform, loadOf, suits]; rfl⟩
  | false =>
      exact ⟨.error (.typeMismatch (.load kind) constant.kind), fun stack => by
        simp [Opcode.perform, loadOf, suits]; rfl⟩

theorem acts_getAttr (constant : Value) : m.Acts 1 .getAttr (some constant) := by
  refine acts_of_result (by decide) fun taken size => ?_
  obtain ⟨v, rfl⟩ := List.length_eq_one_iff.mp size
  cases constant with
  | attrRef name owner => exact ⟨attribute? v name, fun stack => rfl⟩
  | _ => exact ⟨.error _, fun stack => rfl⟩

theorem acts_getStatic {supply : Supply} (supplied : m.bindings.Supplies supply) (constant : Value) :
    m.Acts 0 .getStatic (some constant) := by
  intro taken stack world last after size performed
  obtain rfl := List.length_eq_zero_iff.mp size
  -- What is fetched does not hang on the world, which stays as it is.
  obtain ⟨result, fetched⟩ : ∃ result, ∀ world, fetchBinding m.bindings constant world =
      (result, world) := by
    cases constant with
    | dataRef name scope =>
        cases scope with
        | static =>
            simp only [fetchBinding, supplied name]
            rcases supply name with _ | fault | v <;> exact ⟨_, fun _ => rfl⟩
        | _ => exact ⟨_, fun _ => rfl⟩
    | _ => exact ⟨_, fun _ => rfl⟩
  simp only [perform, fetched] at performed
  cases result with
  | error cause => cases performed
  | ok v =>
      obtain ⟨pushed, rfl⟩ := Prod.mk.inj performed
      obtain ⟨room, rfl⟩ := push_eq_ok.mp pushed
      refine ⟨rfl, v, rfl, fun below world' low => ?_⟩
      simp only [perform, fetched]
      exact congrArg (·, world') (push_eq_ok.mpr ⟨Nat.lt_of_le_of_lt low room, rfl⟩)

end Machine

def Opcode.combines : Opcode → Bool
  | .int _ | .double _ | .concat | .compare _ => true
  | _ => false

theorem Opcode.alone_of_combines {op : Opcode} (combines : op.combines = true) :
    op.hasOperand = false := by
  cases op with
  | int | double | concat | compare => rfl
  | _ => cases combines

theorem Machine.acts_combines {ω : Type} {m : Machine ω} {op : Opcode} (combines : op.combines = true) :
    m.Acts 2 op none := by
  have other : op ≠ .getStatic := by
    rintro rfl
    cases combines
  refine acts_of_result other fun taken size => ?_
  obtain ⟨w, v, rfl⟩ := List.length_eq_two.mp size
  cases op with
  | int operation => exact ⟨intResult operation v w, fun stack => rfl⟩
  | double operation => exact ⟨doubleResult operation v w, fun stack => rfl⟩
  | concat => exact ⟨concatResult v w, fun stack => rfl⟩
  | compare comparison => exact ⟨.ok (compareResult comparison v w), fun stack => rfl⟩
  | _ => cases combines

theorem pushed_of_ok {limit : Nat} {result : Except RuntimeCause Value} {rest last : Stack}
    (performed : (do Stack.push limit (← result) rest) = .ok last) : ∃ v, last = v :: rest := by
  cases result with
  | error cause => cases performed
  | ok v => exact ⟨v, (Machine.push_eq_ok.mp performed).2⟩

theorem Opcode.size_perform {op : Opcode} (combines : op.combines = true) {limit : Nat}
    {stack last : Stack} (performed : op.perform none limit stack = .ok last) :
    last ≠ [] ∧ last.length ≤ max 1 (stack.length - 1) := by
  obtain ⟨v, rest, rfl, short⟩ : ∃ v rest, last = v :: rest ∧ rest.length ≤ stack.length - 2 := by
    cases op with
    | concat =>
        rcases stack with _ | ⟨y, _ | ⟨x, rest⟩⟩ <;> obtain ⟨v, rfl⟩ := pushed_of_ok performed <;>
          exact ⟨v, _, rfl, by simp⟩
    | compare comparison =>
        rcases stack with _ | ⟨y, _ | ⟨x, rest⟩⟩
        · cases performed
        · cases performed
        · exact ⟨_, rest, (Machine.push_eq_ok.mp performed).2, by simp⟩
    | int | double =>
        rcases stack with _ | ⟨y, _ | ⟨x, rest⟩⟩
        · cases performed
        · cases performed
        · obtain ⟨v, rfl⟩ := pushed_of_ok performed
          exact ⟨v, rest, rfl, by simp⟩
    | _ => cases combines
  refine ⟨List.cons_ne_nil v rest, ?_⟩
  rw [List.length_cons]
  omega

end PredicateLang
