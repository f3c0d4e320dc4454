import PredicateLang.Proofs.Machine.Effects

set_option autoImplicit false

namespace PredicateLang

structure Visit where
  opcode : Opcode
  constant : Option Value
  height : Nat

inductive Passage (constants : List Value) : Nat → List UInt32 → List Visit → Nat → Prop
  | nil {height : Nat} : Passage constants height [] [] height
  | plain {height last : Nat} {word : UInt32} {op : Opcode} {rest : List UInt32}
      {visits : List Visit} (known : Opcode.ofWord? word = some op) (alone : op.hasOperand = false)
      (more : Passage constants (op.leaves height) rest visits last) :
      Passage constants height (word :: rest) (⟨op, none, height⟩ :: visits) last
  | withOperand {height last : Nat} {word index : UInt32} {op : Opcode} {rest : List UInt32}
      {constant : Value} {visits : List Visit} (known : Opcode.ofWord? word = some op)
      (followed : op.hasOperand = true) (held : constants[index.toNat]? = some constant)
      (more : Passage constants (op.leaves height) rest visits last) :
      Passage constants height (word :: index :: rest) (⟨op, some constant, height⟩ :: visits) last

namespace Passage

variable {constants : List Value} {height last : Nat} {words : List UInt32} {visits : List Visit}

theorem append {middle : Nat} {first second : List UInt32} {behind : List Visit}
    (one : Passage constants height first visits middle)
    (two : Passage constants middle second behind last) :
    Passage constants height (first ++ second) (visits ++ behind) last := by
  induction one with
  | nil => exact two
  | plain known alone _ ih => exact .plain known alone (ih two)
  | withOperand known followed held _ ih => exact .withOperand known followed held (ih two)

theorem operation {op : Opcode} (alone : op.hasOperand = false) (height : Nat) :
    Passage constants height [op.word] [⟨op, none, height⟩] (op.leaves height) :=
  .plain (Opcode.ofWord?_word op) alone .nil

theorem reference {op : Opcode} {index : UInt32} {constant : Value} (followed : op.hasOperand = true)
    (held : constants[index.toNat]? = some constant) (height : Nat) :
    Passage constants height [op.word, index] [⟨op, some constant, height⟩] (op.leaves height) :=
  .withOperand (Opcode.ofWord?_word op) followed held .nil

theorem fetches {word : UInt32} {rest : List UInt32}
    (passage : Passage constants height (word :: rest) visits last) :
    ∃ op constant next others, fetch constants word rest = .ok ⟨op, constant, next⟩ ∧
      visits = ⟨op, constant, height⟩ :: others ∧
        Passage constants (op.leaves height) next others last := by
  cases passage with
  | plain known alone more => exact ⟨_, _, _, _, Machine.fetch_plain known alone _ _, rfl, more⟩
  | @withOperand _ _ _ index op rest constant others known followed held more =>
      refine ⟨op, some constant, rest, others, ?_, rfl, more⟩
      rw [Machine.fetch_withOperand known followed, held]
      rfl

theorem constant_held (passage : Passage constants height words visits last) :
    ∀ visit ∈ visits, (visit.opcode.hasOperand = false ∧ visit.constant = none) ∨
      ∃ constant ∈ constants, visit.constant = some constant := by
  induction passage with
  | nil => exact nofun
  | plain known alone _ ih => exact List.forall_mem_cons.mpr ⟨.inl ⟨alone, rfl⟩, ih⟩
  | withOperand known followed held _ ih =>
      exact List.forall_mem_cons.mpr ⟨.inr ⟨_, List.mem_of_getElem? held, rfl⟩, ih⟩

end Passage

theorem Effect.height_settled {ω : Type} {bindings : Bindings ω} {op : Opcode}
    {constant : Option Value} {stack last : Stack} {made : Made} {limit : Nat}
    (effect : Effect bindings op constant stack made) (done : made.settle limit = .ok last) :
    last.length = op.leaves stack.length := by
  rcases made with cause | ⟨_ | v, rest⟩
  · cases done
  · cases done
    exact effect.height none _ rfl
  · obtain ⟨-, rfl⟩ := Machine.push_eq_ok.mp done
    exact effect.height (some v) rest rfl

theorem Effect.fault_settled {ω : Type} {bindings : Bindings ω} {op : Opcode}
    {constant : Option Value} {stack : Stack} {made : Made} {limit : Nat} {cause : RuntimeCause}
    (effect : Effect bindings op constant stack made) (failed : made.settle limit = .error cause) :
    Fails bindings op constant stack cause ∨
      cause = .stackOverflow limit ∧ limit < op.leaves stack.length := by
  rcases made with other | ⟨_ | v, rest⟩
  · cases failed
    exact .inl (effect.fails cause rfl)
  · cases failed
  · have height := effect.height (some v) rest rfl
    simp only [Made.settle, Stack.push] at failed
    split_ifs at failed with full
    cases failed
    refine .inr ⟨rfl, ?_⟩
    rw [← height]
    exact Nat.lt_succ_of_le full

namespace Machine

variable {ω : Type} {m : Machine ω} {visits : List Visit} {last : Nat}

theorem passage_step {c next : Config ω}
    (passage : Passage m.constants c.stack.length c.code visits last)
    (moved : m.step c = .moved next) :
    ∃ visit others, visits = visit :: others ∧
      Passage m.constants next.stack.length next.code others last := by
  obtain ⟨pc, code, stack, world⟩ := c
  cases code with
  | nil => cases moved
  | cons word rest =>
      obtain ⟨op, constant, behind, others, found, rfl, more⟩ := passage.fetches
      obtain ⟨made, after, effect, performed⟩ := perform_made m.bindings op constant stack world
      rw [m.step_fetched found (performed m.constants m.limit), settle] at moved
      cases done : made.settle m.limit with
      | error cause =>
          rw [done] at moved
          cases moved
      | ok pushed =>
          rw [done] at moved
          cases moved
          refine ⟨_, others, rfl, ?_⟩
          rw [effect.height_settled done]
          exact more

theorem passage_reaches {c d : Config ω}
    (passage : Passage m.constants c.stack.length c.code visits last) (reached : m.Reaches c d) :
    ∃ before behind, visits = before ++ behind ∧
      Passage m.constants d.stack.length d.code behind last := by
  induction reached with
  | refl => exact ⟨[], visits, rfl, passage⟩
  | tail _ moved ih =>
      obtain ⟨before, behind, rfl, here⟩ := ih
      obtain ⟨visit, others, rfl, more⟩ := passage_step here moved
      exact ⟨before ++ [visit], others, by simp, more⟩

theorem passage_ok {c : Config ω}
    (passage : Passage m.constants c.stack.length c.code visits last) {stack : Stack} {after : ω}
    (stopped : m.step c = .stopped (.ok stack) after) : visits = [] ∧ stack.length = last := by
  obtain ⟨pc, code, operands, world⟩ := c
  cases code with
  | nil =>
      cases stopped
      cases passage
      exact ⟨rfl, rfl⟩
  | cons word rest =>
      obtain ⟨op, constant, behind, others, found, rfl, -⟩ := passage.fetches
      obtain ⟨made, after, -, performed⟩ := perform_made m.bindings op constant operands world
      rw [m.step_fetched found (performed m.constants m.limit), settle] at stopped
      split at stopped <;> cases stopped

def FailsAt (m : Machine ω) (visit : Visit) (cause : RuntimeCause) : Prop :=
  (∃ stack : Stack, stack.length = visit.height ∧
    Fails m.bindings visit.opcode visit.constant stack cause) ∨
  cause = .stackOverflow m.limit ∧ m.limit < visit.opcode.leaves visit.height

theorem passage_error {c : Config ω}
    (passage : Passage m.constants c.stack.length c.code visits last) {fault : RuntimeFault} {after : ω}
    (stopped : m.step c = .stopped (.error fault) after) :
    ∃ visit others, visits = visit :: others ∧ m.FailsAt visit fault.cause := by
  obtain ⟨pc, code, stack, world⟩ := c
  cases code with
  | nil => cases stopped
  | cons word rest =>
      obtain ⟨op, constant, behind, others, found, rfl, -⟩ := passage.fetches
      obtain ⟨made, after, effect, performed⟩ := perform_made m.bindings op constant stack world
      rw [m.step_fetched found (performed m.constants m.limit), settle] at stopped
      cases done : made.settle m.limit with
      | ok pushed =>
          rw [done] at stopped
          cases stopped
      | error cause =>
          rw [done] at stopped
          cases stopped
          exact ⟨_, others, rfl, (effect.fault_settled done).imp_left fun fails => ⟨stack, rfl, fails⟩⟩

section

variable {words : List UInt32} {world : ω}

theorem run_error (passage : Passage m.constants 0 words visits last) {fault : RuntimeFault}
    (failed : (m.run words world).1 = .error fault) :
    ∃ visit ∈ visits, m.FailsAt visit fault.cause := by
  obtain ⟨c, reached, stopped⟩ := m.runFrom_stops ⟨0, words, [], world⟩
  obtain ⟨before, behind, rfl, here⟩ := passage_reaches passage reached
  rw [run] at failed
  rw [failed] at stopped
  obtain ⟨visit, others, rfl, fails⟩ := passage_error here stopped
  exact ⟨visit, by simp, fails⟩

theorem run_ok (passage : Passage m.constants 0 words visits last) {stack : Stack}
    (done : (m.run words world).1 = .ok stack) : stack.length = last := by
  obtain ⟨c, reached, stopped⟩ := m.runFrom_stops ⟨0, words, [], world⟩
  obtain ⟨before, behind, rfl, here⟩ := passage_reaches passage reached
  rw [run] at done
  rw [done] at stopped
  exact (passage_ok here stopped).2

theorem height_of_reaches (passage : Passage m.constants 0 words visits last) {c : Config ω}
    (reached : m.Reaches ⟨0, words, [], world⟩ c) :
    (∃ visit ∈ visits, c.stack.length = visit.height) ∨ c.stack.length = last := by
  obtain ⟨before, behind, rfl, here⟩ := passage_reaches passage reached
  generalize c.stack.length = height, c.code = code at here ⊢
  cases here with
  | nil => exact .inr rfl
  | plain => exact .inl ⟨_, List.mem_append_right before List.mem_cons_self, rfl⟩
  | withOperand => exact .inl ⟨_, List.mem_append_right before List.mem_cons_self, rfl⟩

end

end Machine

end PredicateLang
