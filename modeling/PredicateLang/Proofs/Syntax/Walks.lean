import Mathlib.Data.List.GetD
import PredicateLang.Proofs.Syntax.Pulls
import PredicateLang.Proofs.Token.Coverage

set_option autoImplicit false

namespace PredicateLang

namespace TokenList

def ending (list : TokenList) : Token := ⟨.eof, list.finish, ""⟩

/-- The token at a place. Behind the last one is the end of input, however far. -/
def token (list : TokenList) (place : Nat) : Token := list.tokens.getD place list.ending

def behind (list : TokenList) (place : Nat) : TokenList :=
  { list with tokens := list.tokens.drop place }

def Legal (list : TokenList) : Prop := ∀ t ∈ list.tokens, t.kind ≠ .illegal

def blanksAt (list : TokenList) (place : Nat) : Nat :=
  ((list.tokens.drop place).takeWhile fun t => t.kind = .whitespace).length

def visible (list : TokenList) (place : Nat) : Nat := place + list.blanksAt place

theorem token_inside {list : TokenList} {place : Nat} (inside : place < list.tokens.length) :
    list.token place = list.tokens[place] :=
  List.getD_eq_getElem _ _ inside

theorem token_outside {list : TokenList} {place : Nat} (outside : ¬ place < list.tokens.length) :
    list.token place = list.ending :=
  List.getD_eq_default _ _ (Nat.le_of_not_lt outside)

theorem token_legal {list : TokenList} (legal : list.Legal) (place : Nat) :
    (list.token place).kind ≠ .illegal := by
  by_cases inside : place < list.tokens.length
  · rw [token_inside inside]
    exact legal _ (List.getElem_mem inside)
  · simp [token_outside inside, ending]

theorem drop_eq_nil {list : TokenList} {place : Nat} (outside : ¬ place < list.tokens.length) :
    list.tokens.drop place = [] :=
  List.drop_eq_nil_of_le (Nat.le_of_not_lt outside)

theorem drop_eq_cons {list : TokenList} {place : Nat} (inside : place < list.tokens.length) :
    list.tokens.drop place = list.token place :: list.tokens.drop (place + 1) := by
  rw [List.drop_eq_getElem_cons inside, token_inside inside]

theorem pull_behind (list : TokenList) (place : Nat) :
    TokenSupply.pull (list.behind place) = (.ok (list.token place), list.behind (place + 1)) := by
  show pull _ = _
  by_cases inside : place < list.tokens.length
  · simp [pull, behind, drop_eq_cons inside]
  · have beyond : ¬ place + 1 < list.tokens.length := by omega
    simp [pull, behind, drop_eq_nil inside, drop_eq_nil beyond, token_outside inside, ending]

theorem visible_of_blank {list : TokenList} {place : Nat}
    (blank : (list.token place).kind = .whitespace) :
    list.visible place = list.visible (place + 1) := by
  have inside : place < list.tokens.length := by
    by_contra outside
    simp [token_outside outside, ending] at blank
  simp [visible, blanksAt, drop_eq_cons inside, blank]
  omega

theorem visible_of_other {list : TokenList} {place : Nat}
    (other : (list.token place).kind ≠ .whitespace) : list.visible place = place := by
  by_cases inside : place < list.tokens.length
  · simp [visible, blanksAt, drop_eq_cons inside, other]
  · simp [visible, blanksAt, drop_eq_nil inside]

end TokenList

inductive CursorStep
  | advance
  | giveBack
  | skipBlanks
  | peekKind
  deriving DecidableEq

inductive CursorAnswer
  | token (t : Token)
  | done
  | kind (kind : TokenKind)
  deriving DecidableEq

namespace CursorStep

def onList (list : TokenList) : CursorStep → Nat → CursorAnswer × Nat
  | .advance, place => (.token (list.token place), place + 1)
  | .giveBack, place => (.done, place - 1)
  | .skipBlanks, place => (.done, list.visible place)
  | .peekKind, place => (.kind (list.token place).kind, place)

def follow (list : TokenList) : List CursorStep → Nat → List CursorAnswer × Nat
  | [], place => ([], place)
  | step :: steps, place =>
      match step.onList list place with
      | (answer, next) =>
          match follow list steps next with
          | (answers, last) => (answer :: answers, last)

/-- Whether every token that is given back was taken by the step right before. -/
def disciplined (taken : Bool) : List CursorStep → Bool
  | [] => true
  | step :: steps => (step ≠ .giveBack || taken) && disciplined (step = .advance) steps

end CursorStep

namespace Cursor

section

variable {σ : Type} [TokenSupply σ]

def perform : CursorStep → Parse σ CursorAnswer
  | .advance => do return .token (← advance)
  | .giveBack => do
      giveBack
      return .done
  | .skipBlanks => do
      skipBlanks
      return .done
  | .peekKind => do return .kind (← peekKind)

def walk : List CursorStep → Parse σ (List CursorAnswer)
  | [] => pure []
  | step :: steps => do
      let answer ← perform step
      return answer :: (← walk steps)

end

variable {list : TokenList} {place : Nat} {c : Cursor TokenList}

/-- Each token in front of the place was pulled once, and of those at the place or behind it only the one
that was given back. -/
structure Standing (list : TokenList) (place : Nat) (c : Cursor TokenList) : Prop where
  supply : c.supply = list.behind (place + c.returned.toList.length)
  returned : ∀ t, c.returned = some t → t = list.token place
  last : ∀ t, c.last = some t → c.returned = none ∧ 0 < place ∧ t = list.token (place - 1)

theorem standing_start (list : TokenList) : Standing list 0 (ofSupply list) :=
  ⟨rfl, nofun, nofun⟩

theorem advance_standing (legal : list.Legal) (standing : Standing list place c) :
    advance c = (.ok (list.token place),
      ⟨list.behind (place + 1), some (list.token place), none⟩) := by
  obtain ⟨supply, last, returned⟩ := c
  obtain ⟨here, same, -⟩ := standing
  have legal := TokenList.token_legal legal place
  cases returned with
  | none =>
      obtain rfl : supply = list.behind place := here
      simp [advance, pull, TokenList.pull_behind, legal]
  | some t =>
      obtain rfl := same t rfl
      obtain rfl : supply = list.behind (place + 1) := here
      simp [advance, pull, legal]

theorem standing_taken (list : TokenList) (place : Nat) :
    Standing list (place + 1) ⟨list.behind (place + 1), some (list.token place), none⟩ :=
  ⟨rfl, nofun, fun t held => by cases held; exact ⟨rfl, by omega, rfl⟩⟩

theorem standing_returned (list : TokenList) (place : Nat) :
    Standing list place ⟨list.behind (place + 1), none, some (list.token place)⟩ :=
  ⟨rfl, fun t held => by cases held; rfl, nofun⟩

theorem giveBack_taken (list : TokenList) (place : Nat) :
    giveBack ⟨list.behind (place + 1), some (list.token place), none⟩ =
      (.ok (), ⟨list.behind (place + 1), none, some (list.token place)⟩) := rfl

theorem giveBack_standing (standing : Standing list place c) (held : c.last.isSome = true) :
    ∃ back, giveBack c = (.ok (), back) ∧ Standing list (place - 1) back ∧ back.last = none := by
  obtain ⟨supply, last, returned⟩ := c
  obtain ⟨t, rfl⟩ : ∃ t, last = some t := Option.isSome_iff_exists.1 held
  obtain ⟨here, -, same⟩ := standing
  obtain ⟨rfl, some, rfl⟩ := same t rfl
  obtain ⟨before, rfl⟩ : ∃ before, place = before + 1 := ⟨place - 1, by omega⟩
  obtain rfl : supply = list.behind (before + 1) := here
  exact ⟨_, giveBack_taken list before, standing_returned list before, rfl⟩

theorem giveBack_refused {σ : Type} {c : Cursor σ} (none : c.last = none) :
    ∃ cause, giveBack c = (.error (.misuse cause), c) := by
  obtain ⟨supply, last, returned⟩ := c
  obtain rfl : last = .none := none
  cases returned with
  | none => exact ⟨.nothingToReturn, rfl⟩
  | some t => exact ⟨.alreadyReturned, rfl⟩

theorem skipBlanks_standing {place : Nat} {c : Cursor TokenList} (legal : list.Legal)
    (standing : Standing list place c) :
    ∃ next, skipBlanks c = (.ok (), next) ∧ Standing list (list.visible place) next ∧
      next.last = none := by
  have found := advance_standing legal standing
  rw [skipBlanks_eq, bind_apply, found]
  by_cases blank : (list.token place).kind = .whitespace
  · have fewer := left_advance_lt found (by simp [blank])
    simp only [if_pos blank, TokenList.visible_of_blank blank]
    exact skipBlanks_standing legal (standing_taken list place)
  · simp only [if_neg blank, TokenList.visible_of_other blank]
    exact ⟨_, giveBack_taken list place, standing_returned list place, rfl⟩
termination_by c.left

theorem perform_standing (legal : list.Legal) (standing : Standing list place c) (step : CursorStep)
    (allowed : step = .giveBack → c.last.isSome = true) :
    ∃ next, perform step c = (.ok (step.onList list place).1, next) ∧
      Standing list (step.onList list place).2 next ∧
      next.last.isSome = decide (step = .advance) := by
  have found := advance_standing legal standing
  cases step with
  | advance =>
      refine ⟨_, ?_, standing_taken list place, rfl⟩
      simp only [perform, bind_apply, found]
      rfl
  | giveBack =>
      obtain ⟨back, gave, kept, none⟩ := giveBack_standing standing (allowed rfl)
      refine ⟨back, ?_, kept, by rw [none]; rfl⟩
      simp only [perform, bind_apply, gave]
      rfl
  | skipBlanks =>
      obtain ⟨next, skipped, kept, none⟩ := skipBlanks_standing legal standing
      refine ⟨next, ?_, kept, by rw [none]; rfl⟩
      simp only [perform, bind_apply, skipped]
      rfl
  | peekKind =>
      refine ⟨_, ?_, standing_returned list place, rfl⟩
      simp only [perform, peekKind, bind_apply, found, giveBack_taken]
      rfl

theorem walk_standing (legal : list.Legal) (steps : List CursorStep) {place : Nat}
    {c : Cursor TokenList} (standing : Standing list place c) :
    if CursorStep.disciplined c.last.isSome steps = true then
      ∃ last, walk steps c = (.ok (CursorStep.follow list steps place).1, last) ∧
        Standing list (CursorStep.follow list steps place).2 last
    else ∃ cause last, walk steps c = (.error (.misuse cause), last) := by
  induction steps generalizing place c with
  | nil => exact ⟨c, rfl, standing⟩
  | cons step steps ih =>
      by_cases allowed : step = .giveBack → c.last.isSome = true
      · obtain ⟨next, performed, kept, taken⟩ := perform_standing legal standing step allowed
        have first : (decide (step ≠ .giveBack) || c.last.isSome) = true := by
          simpa [imp_iff_not_or] using allowed
        have others := ih kept
        simp only [CursorStep.disciplined, CursorStep.follow, first, Bool.true_and, ← taken]
        simp only [walk, bind_apply, performed]
        split at others
        · rename_i fine
          obtain ⟨last, walked, stands⟩ := others
          rw [if_pos fine, walked]
          exact ⟨last, rfl, stands⟩
        · rename_i refused
          obtain ⟨cause, last, walked⟩ := others
          rw [if_neg refused, walked]
          exact ⟨cause, last, rfl⟩
      · obtain ⟨rfl, none⟩ := Classical.not_imp.1 allowed
        obtain ⟨cause, refused⟩ := giveBack_refused (by simpa using none)
        have first : CursorStep.disciplined c.last.isSome (.giveBack :: steps) = false := by
          simp [CursorStep.disciplined, none]
        rw [first, if_neg Bool.false_ne_true]
        refine ⟨cause, c, ?_⟩
        simp only [walk, perform, bind_apply, refused]

section

variable {σ τ : Type} [TokenSupply σ] [TokenSupply τ]

theorem settled_perform (step : CursorStep) :
    Settled (perform step : Parse σ CursorAnswer) (perform step : Parse τ CursorAnswer) := by
  cases step with
  | advance => exact settled_bind settled_advance fun _ => settled_pure _
  | giveBack => exact settled_bind settled_giveBack fun _ => settled_pure _
  | skipBlanks => exact settled_bind settled_skipBlanks fun _ => settled_pure _
  | peekKind =>
      refine settled_bind (settled_bind settled_advance fun t => ?_) fun _ => settled_pure _
      exact settled_bind settled_giveBack fun _ => settled_pure _

theorem settled_walk (steps : List CursorStep) :
    Settled (walk steps : Parse σ (List CursorAnswer)) (walk steps : Parse τ (List CursorAnswer)) := by
  induction steps with
  | nil => exact settled_pure _
  | cons step steps ih =>
      exact settled_bind (settled_perform step) fun _ => settled_bind ih fun _ => settled_pure _

end

end Cursor

theorem allTokens_ok {σ : Type} [TokenSupply σ] {s : σ} {tokens : List Token}
    (h : allTokens s = .ok tokens) :
    ∃ t next, TokenSupply.pull s = (.ok t, next) ∧ (t.kind = .eof ∧ tokens = [t] ∨
      t.kind ≠ .eof ∧ ∃ rest, allTokens next = .ok rest ∧ tokens = t :: rest) := by
  rw [allTokens] at h
  split at h
  · cases h
  · rename_i t next found
    refine ⟨t, next, found, ?_⟩
    split at h
    · rename_i ends
      cases h
      exact .inl ⟨ends, rfl⟩
    · rename_i more
      cases others : allTokens next with
      | error fault =>
          rw [others] at h
          cases h
      | ok rest =>
          rw [others] at h
          cases h
          exact .inr ⟨more, rest, rfl, rfl⟩

namespace Scanner

def Delivers (s : Scanner) (list : TokenList) : Prop :=
  s.Drained ∧ (allTokens s = .ok (list.tokens ++ [list.ending]) ∨
    s.finished = true ∧ s.position = list.finish ∧ list.tokens = [])

theorem next_of_finished {s : Scanner} (finished : s.finished = true) :
    s.next = (.ok ⟨.eof, s.position, ""⟩, s.fresh) := by
  have none : take s.fresh = (.ok none, s.fresh) := by simp [take, fresh, finished]
  simp only [next, token, none]
  simp [Except.mapError, fresh, finished]

theorem next_of_end {s next : Scanner} {t : Token} (drained : s.Drained)
    (h : s.next = (.ok t, next)) (ends : t.kind = .eof) :
    t = ⟨.eof, s.position, ""⟩ ∧ next.finished = true ∧ next.position = s.position := by
  have covers := (next_covers drained).1
  have scanned := next_ok (s := s) (t := t) (by rw [h])
  have after : (token s.fresh).2 = next := congrArg Prod.snd h
  rw [h] at covers
  unfold token at scanned after
  cases found : take s.fresh with
  | mk result last =>
      obtain ⟨kept, -⟩ := coupled_take (coupled_fresh drained) found
      rw [found] at scanned after
      rcases result with fault | _ | c
      · cases scanned
      · cases scanned
        subst after
        have nothing : last.taken = [] := taken_take_none found
        refine ⟨rfl, rfl, ?_⟩
        have place := covers.placed
        simpa [word, nothing] using place
      · obtain ⟨-, other, -, -⟩ := tokenAfter_ok kept (word_take found) (Prod.ext scanned rfl)
        exact absurd ends other

theorem delivers_alike : TokenSupply.Alike Delivers := by
  rintro s ⟨tokens, finish⟩ ⟨drained, ahead | ⟨finished, same, rfl⟩⟩
  · have still := (next_covers drained).1.drained
    obtain ⟨t, next, found, here⟩ := allTokens_ok ahead
    replace found : s.next = (.ok t, next) := found
    show s.next.1 = _ ∧ Delivers s.next.2 _
    rw [found] at still ⊢
    obtain ⟨ends, last⟩ | ⟨more, rest, others, front⟩ := here
    · obtain ⟨rfl, finished, stays⟩ := next_of_end drained found ends
      obtain ⟨rfl, only⟩ := List.append_eq_singleton_iff.1 last |>.resolve_right (by simp)
      obtain rfl : finish = s.position := by simpa [TokenList.ending] using only
      exact ⟨rfl, still, .inr ⟨finished, stays, rfl⟩⟩
    · cases tokens with
      | nil =>
          obtain ⟨rfl, -⟩ := List.cons.inj front
          exact absurd rfl more
      | cons u tokens =>
          obtain ⟨rfl, rfl⟩ := List.cons.inj front
          exact ⟨rfl, still, .inl others⟩
  · have still := (next_covers drained).1.drained
    show s.next.1 = _ ∧ Delivers s.next.2 _
    rw [next_of_finished finished] at still ⊢
    exact ⟨by rw [same]; rfl, still, .inr ⟨finished, same, rfl⟩⟩

theorem list_of_allTokens {s : Scanner} {tokens : List Token} (drained : s.Drained)
    (h : allTokens s = .ok tokens) :
    ∃ list : TokenList, tokens = list.tokens ++ [list.ending] := by
  induction tokens generalizing s with
  | nil =>
      obtain ⟨t, next, -, ⟨-, none⟩ | ⟨-, rest, -, none⟩⟩ := allTokens_ok h <;> cases none
  | cons u rest ih =>
      obtain ⟨t, next, found, ⟨ends, last⟩ | ⟨-, others, behind, front⟩⟩ := allTokens_ok h
      · obtain ⟨rfl, -, -⟩ := next_of_end drained found ends
        exact ⟨⟨[], s.position⟩, last⟩
      · obtain ⟨rfl, rfl⟩ := List.cons.inj front
        have still : next.Drained := by
          have covers := (next_covers drained).1
          rw [show s.next = (.ok u, next) from found] at covers
          exact covers.drained
        obtain ⟨list, whole⟩ := ih still behind
        exact ⟨⟨u :: list.tokens, list.finish⟩, by rw [whole]; rfl⟩

theorem delivers_of_tokenize {keywordBoundary : Bool} {feed : Feed} {tokens : List Token}
    (h : tokenize keywordBoundary feed = .ok tokens) :
    ∃ list : TokenList, tokens = list.tokens ++ [list.ending] ∧
      (ofFeed keywordBoundary feed).Delivers list := by
  have drained := drained_ofFeed keywordBoundary feed
  obtain ⟨list, whole⟩ := list_of_allTokens drained h
  exact ⟨list, whole, drained, .inl (whole ▸ h)⟩

end Scanner

theorem parse_not_misuse {σ : Type} [TokenSupply σ] (s : σ) (cause : Misuse) :
    parse s ≠ .error (.misuse cause) := by
  intro failed
  obtain ⟨arises, -⟩ := pulls_of_error failed
  cases arises

open Cursor in
/-- No run of the parser brings a cursor into a state in which it refuses to take a token back. Over every
list of tokens without illegal ones a cursor gives just what its place in the list gives, with each token
pulled once, if what is given back was taken by the step right before; all other walks end in a refusal.
The tokens of a stream are such a list. -/
theorem cursor_stands_in_list :
    (∀ keywordBoundary feed cause,
      parse (Scanner.ofFeed keywordBoundary feed) ≠ .error (.misuse cause)) ∧
    (∀ list : TokenList, list.Legal → ∀ steps,
      if CursorStep.disciplined false steps = true then
        ∃ last, walk steps (ofSupply list) = (.ok (CursorStep.follow list steps 0).1, last) ∧
          Standing list (CursorStep.follow list steps 0).2 last
      else ∃ cause last, walk steps (ofSupply list) = (.error (.misuse cause), last)) ∧
    ∀ keywordBoundary feed tokens, tokenize keywordBoundary feed = .ok tokens →
      ∃ list : TokenList, tokens = list.tokens ++ [list.ending] ∧
        ∀ steps, (walk steps (ofSupply (Scanner.ofFeed keywordBoundary feed))).1 =
          (walk steps (ofSupply list)).1 := by
  refine ⟨fun keywordBoundary feed => parse_not_misuse _, fun list legal steps => ?_,
    fun keywordBoundary feed tokens tokenized => ?_⟩
  · exact walk_standing legal steps (standing_start list)
  · obtain ⟨list, whole, delivers⟩ := Scanner.delivers_of_tokenize tokenized
    exact ⟨list, whole, fun steps =>
      (settled_walk steps).eq_of_alike Scanner.delivers_alike delivers⟩

end PredicateLang
