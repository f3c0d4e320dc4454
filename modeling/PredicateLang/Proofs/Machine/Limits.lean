import PredicateLang.Proofs.Machine.Effects

set_option autoImplicit false

namespace PredicateLang

namespace Machine

variable {ω : Type}

theorem length_settle_le {limit : Nat} {made : Made} {last : Stack} {most : Nat}
    (low : ∀ v rest, made = .ok (v, rest) → rest.length ≤ most)
    (done : made.settle limit = .ok last) : last.length ≤ max most limit := by
  rcases made with cause | ⟨_ | v, rest⟩
  · cases done
  · cases done
    exact Nat.le_trans (low none _ rfl) (Nat.le_max_left _ _)
  · obtain ⟨room, rfl⟩ := push_eq_ok.mp done
    exact Nat.le_trans room (Nat.le_max_right _ _)

theorem length_stack_le {m : Machine ω} {c next : Config ω} (moved : m.step c = .moved next)
    (fits : c.stack.length ≤ m.limit) : next.stack.length ≤ m.limit := by
  obtain ⟨pc, code, stack, world⟩ := c
  cases code with
  | nil => cases moved
  | cons word rest =>
      cases found : fetch m.constants word rest with
      | error cause => cases (m.step_unfetched found pc stack world).symm.trans moved
      | ok fetched =>
          obtain ⟨op, constant, next⟩ := fetched
          obtain ⟨made, after, effect, performed⟩ :=
            perform_made m.bindings op constant stack world
          rw [m.step_fetched found (performed m.constants m.limit), settle] at moved
          cases done : made.settle m.limit with
          | error cause =>
              rw [done] at moved
              cases moved
          | ok last =>
              rw [done] at moved
              cases moved
              have within := length_settle_le effect.low done
              rwa [Nat.max_eq_right fits] at within

theorem Reaches.stack_le_limit {m : Machine ω} {start c : Config ω} (reached : m.Reaches start c)
    (fits : start.stack.length ≤ m.limit) : c.stack.length ≤ m.limit := by
  induction reached with
  | refl => exact fits
  | tail _ moved ih => exact length_stack_le moved ih

/-- What a step with the lower limit comes to, next to one with the higher limit. -/
inductive Lockstep (m m' : Machine ω) (c : Config ω) : Prop
  | same (same : m.step c = m'.step c)
      (within : ∀ next, m'.step c = .moved next → next.stack.length ≤ m.limit)
  | cut (next : Config ω) (moved : m'.step c = .moved next)
      (deeper : next.stack.length = m.limit + 1)
      (stopped : m.step c = .stopped (.error ⟨c.pc, .stackOverflow m.limit⟩) next.world)

theorem settle_limits {limit limit' : Nat} (le : limit ≤ limit') {made : Made}
    (low : ∀ v rest, made = .ok (v, rest) → rest.length ≤ limit) :
    (made.settle limit = made.settle limit' ∧
        ∀ last, made.settle limit' = .ok last → last.length ≤ limit) ∨
      ∃ last, made.settle limit' = .ok last ∧ last.length = limit + 1 ∧
        made.settle limit = .error (.stackOverflow limit) := by
  rcases made with cause | ⟨_ | v, rest⟩
  · exact .inl ⟨rfl, nofun⟩
  · refine .inl ⟨rfl, ?_⟩
    rintro last ⟨⟩
    exact low none _ rfl
  · have under := low (some v) rest rfl
    rcases Nat.lt_or_eq_of_le under with room | full
    · -- There is room for the value under both limits.
      have pushed : Made.settle limit' (.ok (some v, rest)) = .ok (v :: rest) :=
        push_eq_ok.mpr ⟨Nat.lt_of_lt_of_le room le, rfl⟩
      refine .inl ⟨?_, ?_⟩
      · rw [pushed]
        exact push_eq_ok.mpr ⟨room, rfl⟩
      · intro last done
        cases pushed.symm.trans done
        exact room
    · have stops : Made.settle limit (.ok (some v, rest)) = .error (.stackOverflow limit) := by
        simp [Made.settle, Stack.push, full]
      rcases Nat.lt_or_eq_of_le le with higher | rfl
      · exact .inr ⟨v :: rest, push_eq_ok.mpr ⟨full ▸ higher, rfl⟩, by simp [full], stops⟩
      · refine .inl ⟨rfl, fun last done => ?_⟩
        cases stops.symm.trans done

variable {constants : List Value} {bindings : Bindings ω} {limit limit' : Nat}

variable (constants bindings) in
theorem lockstep (le : limit ≤ limit') {c : Config ω} (fits : c.stack.length ≤ limit) :
    Lockstep ⟨constants, bindings, limit⟩ ⟨constants, bindings, limit'⟩ c := by
  obtain ⟨pc, code, stack, world⟩ := c
  cases code with
  | nil => exact .same rfl nofun
  | cons word rest =>
      cases found : fetch constants word rest with
      | error cause =>
          have stops (limit : Nat) :=
            step_unfetched ⟨constants, bindings, limit⟩ found pc stack world
          refine .same ((stops limit).trans (stops limit').symm) fun next moved => ?_
          cases (stops limit').symm.trans moved
      | ok fetched =>
          obtain ⟨op, constant, next⟩ := fetched
          obtain ⟨made, after, effect, performed⟩ := perform_made bindings op constant stack world
          have steps (limit : Nat) :=
            step_fetched ⟨constants, bindings, limit⟩ found (performed constants limit) pc
          have low (v : Option Value) (rest : Stack) (given : made = .ok (v, rest)) :
              rest.length ≤ limit := Nat.le_trans (effect.low v rest given) fits
          rcases settle_limits le low with ⟨same, within⟩ | ⟨last, done, deeper, stops⟩
          · refine .same ?_ fun next moved => ?_
            · rw [steps limit, steps limit', settle, settle, same]
            · rw [steps limit', settle] at moved
              split at moved <;> cases moved
              exact within _ ‹_›
          · refine .cut ⟨pc + op.width, next, last, after⟩ ?_ deeper ?_
            · rw [steps limit', settle]
              simp only [done]
            · rw [steps limit, settle]
              simp only [stops]

/-- The first place at which a run with the higher limit pushes an operand beyond the lower one; up to
there both runs go the same way. -/
structure FirstBeyond (m m' : Machine ω) (start c next : Config ω) : Prop where
  reached : m.Reaches start c
  reached' : m'.Reaches start c
  moved : m'.step c = .moved next
  deeper : next.stack.length = m.limit + 1
  first : ∀ before, m'.Reaches start before → m'.Reaches before c →
    before.stack.length ≤ m.limit

theorem Reaches.antisymm {m : Machine ω} {c last : Config ω} (reached : m.Reaches c last)
    (back : m.Reaches last c) : last = c := by
  rcases reached.cases_head with rfl | ⟨middle, moved, more⟩
  · rfl
  · have shorter := length_code_lt moved
    have onward := Reaches.length_code_le more
    have around := Reaches.length_code_le back
    omega

theorem FirstBeyond.head {m m' : Machine ω} {start middle c next : Config ω}
    (fits : start.stack.length ≤ m.limit) (step : m.step start = .moved middle)
    (step' : m'.step start = .moved middle) (h : FirstBeyond m m' middle c next) :
    FirstBeyond m m' start c next where
  reached := .head step h.reached
  reached' := .head step' h.reached'
  moved := h.moved
  deeper := h.deeper
  first before reached more := by
    rcases reached.cases_head with rfl | ⟨other, moved, onward⟩
    · exact fits
    · cases step'.symm.trans moved
      exact h.first before onward more

theorem runFrom_limits (le : limit ≤ limit') (start : Config ω)
    (fits : start.stack.length ≤ limit) :
    let m := Machine.mk constants bindings limit
    let m' := Machine.mk constants bindings limit'
    m.runFrom start = m'.runFrom start ∨ ∃ c next, FirstBeyond m m' start c next ∧
      m.runFrom start = (.error ⟨c.pc, .stackOverflow limit⟩, next.world) := by
  intro m m'
  -- As long as a step is the same under both limits, the run from behind it decides.
  fun_induction runFrom m' start with
  | case1 c next moved ih =>
      rcases lockstep constants bindings le fits with
        ⟨same, within⟩ | ⟨beyond, moved', deeper, stopped⟩
      · have step : m.step c = .moved next := same.trans moved
        rw [runFrom_of_moved step]
        rcases ih (within next moved) with equal | ⟨last, beyond, first, stops⟩
        · exact .inl equal
        · exact .inr ⟨last, beyond, first.head fits step moved, stops⟩
      · cases moved.symm.trans moved'
        refine .inr ⟨c, next, ⟨.refl, .refl, moved, deeper, fun before reached back => ?_⟩,
          runFrom_of_stopped stopped⟩
        rwa [reached.antisymm back]
  | case2 c result world stopped =>
      rcases lockstep constants bindings le fits with
        ⟨same, -⟩ | ⟨beyond, moved, -, -⟩
      · exact .inl (runFrom_of_stopped (same.trans stopped))
      · cases stopped.symm.trans moved

end Machine

/-- A lower limit changes nothing about a run but where it stops: at the first instruction that would push
an operand beyond the limit, if the run with a higher limit comes to such an instruction. -/
theorem lower_limit_cuts_short {ω : Type} (p : Program) (bindings : Bindings ω) {limit limit' : Nat}
    (le : limit ≤ limit') (world : ω) :
    let m := Machine.mk p.constants bindings limit
    let m' := Machine.mk p.constants bindings limit'
    let start : Config ω := ⟨0, p.words, [], world⟩
    (∀ c, m.Reaches start c → c.stack.length ≤ limit) ∧
      (p.run bindings limit world = p.run bindings limit' world ∨
        ∃ c next, Machine.FirstBeyond m m' start c next ∧
          p.run bindings limit world = (.error ⟨c.pc, .stackOverflow limit⟩, next.world)) := by
  intro m m' start
  refine ⟨fun c reached => reached.stack_le_limit (Nat.zero_le _), ?_⟩
  rcases Machine.runFrom_limits le start (Nat.zero_le _) with same | ⟨c, next, first, stops⟩
  · left
    simp only [Program.run, Machine.run]
    rw [same]
  · right
    refine ⟨c, next, first, ?_⟩
    simp only [Program.run, Machine.run]
    rw [stops]
    rfl

-- Two integers are loaded one after the other.
def twoLoads : Program := ⟨[4, 0, 4, 0], [.int 1]⟩

theorem two_loads_cut_short : 1 ≤ 2 ∧ ∃ c next,
    Machine.FirstBeyond ⟨twoLoads.constants, (.empty : Bindings Unit), 1⟩
      ⟨twoLoads.constants, .empty, 2⟩ ⟨0, twoLoads.words, [], ()⟩ c next ∧
    twoLoads.run .empty 1 () = (.error ⟨c.pc, .stackOverflow 1⟩, next.world) := by
  obtain ⟨-, same | cut⟩ := lower_limit_cuts_short twoLoads .empty (by decide : 1 ≤ 2) ()
  · -- Under the limit of two the run succeeds, under that of one it does not.
    have large : twoLoads.run (.empty : Bindings Unit) 2 () = (.ok (some (.int 1)), ()) := by
      simp only [Program.run, Machine.run]
      rw [Machine.runFrom_of_moved rfl, Machine.runFrom_of_moved rfl, Machine.runFrom_nil]
      rfl
    have small : twoLoads.run (.empty : Bindings Unit) 1 () = (.error ⟨2, .stackOverflow 1⟩, ()) := by
      simp only [Program.run, Machine.run]
      rw [Machine.runFrom_of_moved rfl, Machine.runFrom_of_stopped rfl]
      rfl
    cases (small.symm.trans same).trans large
  · exact ⟨by decide, cut⟩

end PredicateLang
