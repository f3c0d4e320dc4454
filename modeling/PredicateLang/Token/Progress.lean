import PredicateLang.Token.Scanner

set_option autoImplicit false

namespace PredicateLang

namespace Scanner

def weight (s : Scanner) : Nat := s.left + s.taken.length

def Steady {α : Type} (mark : Nat) (x : Scan α) : Prop :=
  ∀ s : Scanner, mark ≤ s.taken.length →
    (x s).2.weight ≤ s.weight ∧ ∀ a, (x s).1 = .ok a → mark ≤ (x s).2.taken.length

theorem bind_apply {α β : Type} (x : Scan α) (f : α → Scan β) (s : Scanner) :
    (x >>= f) s = match x s with
      | (.ok a, next) => f a next
      | (.error fault, next) => (.error fault, next) := by
  show (ExceptT.bind x f) s = _
  simp only [ExceptT.bind, ExceptT.mk]
  show (ExceptT.bindCont f (x s).1) (x s).2 = _
  rcases x s with ⟨⟨fault⟩ | ⟨a⟩, next⟩ <;> rfl

theorem Steady.pure {α : Type} {mark : Nat} (a : α) : Steady mark (pure a : Scan α) := by
  intro s held
  exact ⟨Nat.le_refl _, fun _ _ => held⟩

theorem Steady.bind {α β : Type} {mark : Nat} {x : Scan α} {f : α → Scan β}
    (first : Steady mark x) (second : ∀ a, Steady mark (f a)) : Steady mark (x >>= f) := by
  intro s held
  obtain ⟨lighter, kept⟩ := first s held
  rw [bind_apply]
  generalize x s = outcome at lighter kept
  obtain ⟨result, next⟩ := outcome
  cases result with
  | error fault => exact ⟨lighter, nofun⟩
  | ok a =>
      obtain ⟨more, still⟩ := second a next (kept a rfl)
      exact ⟨Nat.le_trans more lighter, still⟩

theorem Steady.result {α : Type} {mark : Nat} (a : Scanner → α) :
    Steady mark (fun s => (.ok (a s), s) : Scan α) := by
  intro s held
  exact ⟨Nat.le_refl _, fun _ _ => held⟩

theorem steady_take (mark : Nat) : Steady mark take := by
  intro s held
  have stays := Window.size_read_le s.window
  unfold take
  split
  · exact ⟨Nat.le_refl _, fun _ _ => held⟩
  · split
    · rename_i c window found
      have shrinks := Window.size_read_lt found
      constructor
      · simp [weight, left]; omega
      · simp; omega
    · rename_i window found
      rw [found] at stays
      exact ⟨by simpa [weight, left] using stays, fun _ _ => held⟩
    · rename_i fault window found
      rw [found] at stays
      exact ⟨by simpa [weight, left] using stays, nofun⟩

theorem taken_take_ok {s next : Scanner} {c : Char} (h : take s = (.ok (some c), next)) :
    next.taken.length = s.taken.length + 1 := by
  unfold take at h
  split at h
  · cases h
  · split at h
    · cases h
      simp
    · cases h
    · cases h

theorem giveBack_ok {s next : Scanner} (h : giveBack s = (.ok (), next)) :
    next.weight = s.weight ∧ next.taken.length + 1 = s.taken.length := by
  unfold giveBack at h
  split at h
  · cases h
  · rename_i taken held
    split at h
    · cases h
    · rename_i window found
      cases h
      have grown := Window.size_unread? found
      simp [weight, left, held]
      omega

theorem giveBack_weight_le (s : Scanner) : (giveBack s).2.weight ≤ s.weight := by
  unfold giveBack
  split
  · exact Nat.le_refl _
  · rename_i taken held
    split
    · simp [weight, left, held]
    · rename_i window found
      have grown := Window.size_unread? found
      simp [weight, left, held]
      omega

theorem giveBackMany_steady (count : Nat) (s : Scanner) :
    (giveBackMany count s).2.weight ≤ s.weight ∧
      ∀ a, (giveBackMany count s).1 = .ok a →
        (giveBackMany count s).2.taken.length + count = s.taken.length := by
  induction count generalizing s with
  | zero => exact ⟨Nat.le_refl _, fun _ _ => rfl⟩
  | succ count ih =>
      have lighter := giveBack_weight_le s
      simp only [giveBackMany, bind_apply]
      cases gave : giveBack s with
      | mk result next =>
          rw [gave] at lighter
          cases result with
          | error fault => exact ⟨lighter, nofun⟩
          | ok u =>
              obtain ⟨more, kept⟩ := ih next
              refine ⟨Nat.le_trans more lighter, fun a done => ?_⟩
              have one := (giveBack_ok gave).2
              have rest := kept a done
              simp only at rest ⊢
              omega

theorem steady_restore {mark least : Nat} (above : least ≤ mark) : Steady least (restore mark) := by
  intro s held
  have all := giveBackMany_steady (s.taken.length - mark) s
  refine ⟨all.1, fun a done => ?_⟩
  have kept := all.2 a done
  show least ≤ (giveBackMany (s.taken.length - mark) s).2.taken.length
  omega

theorem steady_takeTextFrom {mark least : Nat} (above : least ≤ mark) (expected : List Char) :
    Steady least (takeTextFrom mark expected) := by
  induction expected with
  | nil => exact Steady.pure true
  | cons c rest ih =>
      refine Steady.bind (steady_take least) fun found => ?_
      split
      · exact ih
      · exact Steady.bind (steady_restore above) fun _ => Steady.pure false

theorem steady_takeText (least : Nat) (expected : List Char) : Steady least (takeText expected) := by
  intro s held
  exact steady_takeTextFrom held expected s held

theorem steady_peekIs (mark : Nat) (class? : Char → Bool) : Steady mark (peekIs class?) := by
  intro s held
  have took := steady_take mark s held
  simp only [peekIs, bind_apply]
  cases found : take s with
  | mk result next =>
      rw [found] at took
      cases result with
      | error fault => exact ⟨took.1, nofun⟩
      | ok c? =>
          cases c? with
          | none => exact ⟨took.1, fun _ _ => took.2 _ rfl⟩
          | some c =>
              have longer := taken_take_ok found
              have lighter := giveBack_weight_le next
              simp only [bind_apply]
              cases gave : giveBack next with
              | mk result last =>
                  rw [gave] at lighter
                  cases result with
                  | error fault => exact ⟨Nat.le_trans lighter took.1, nofun⟩
                  | ok u =>
                      have one := (giveBack_ok gave).2
                      refine ⟨Nat.le_trans lighter took.1, fun _ _ => ?_⟩
                      show mark ≤ last.taken.length
                      omega

theorem steady_giveBack {mark : Nat} {s next : Scanner} {c : Char} (held : mark ≤ s.taken.length)
    (found : take s = (.ok (some c), next)) :
    (giveBack next).2.weight ≤ s.weight ∧
      ∀ a, (giveBack next).1 = .ok a → mark ≤ (giveBack next).2.taken.length := by
  have took := (steady_take mark s held).1
  rw [found] at took
  have longer := taken_take_ok found
  have lighter := giveBack_weight_le next
  refine ⟨Nat.le_trans lighter took, fun a done => ?_⟩
  cases gave : giveBack next with
  | mk result last =>
      rw [gave] at done
      cases done
      have one := (giveBack_ok gave).2
      show mark ≤ last.taken.length
      omega

theorem steady_after {α : Type} {mark : Nat} {s next : Scanner} {c : Char}
    {rest : Except ScanFault α × Scanner} (held : mark ≤ s.taken.length)
    (found : take s = (.ok (some c), next))
    (onward : mark ≤ next.taken.length →
      rest.2.weight ≤ next.weight ∧ ∀ a, rest.1 = .ok a → mark ≤ rest.2.taken.length) :
    rest.2.weight ≤ s.weight ∧ ∀ a, rest.1 = .ok a → mark ≤ rest.2.taken.length := by
  have took := steady_take mark s held
  rw [found] at took
  obtain ⟨lighter, kept⟩ := onward (took.2 _ rfl)
  exact ⟨Nat.le_trans lighter took.1, kept⟩

theorem steady_stop {α : Type} {mark : Nat} {s next : Scanner} {c? : Option Char}
    (held : mark ≤ s.taken.length) (found : take s = (.ok c?, next)) (result : Except ScanFault α) :
    next.weight ≤ s.weight ∧ ∀ a, result = .ok a → mark ≤ next.taken.length := by
  have took := steady_take mark s held
  rw [found] at took
  exact ⟨took.1, fun _ _ => took.2 _ rfl⟩

theorem steady_fault {α : Type} {mark : Nat} {s next : Scanner} {fault : ScanFault}
    (held : mark ≤ s.taken.length) (found : take s = (.error fault, next)) :
    next.weight ≤ s.weight ∧ ∀ a : α, Except.error fault = .ok a → mark ≤ next.taken.length := by
  have took := steady_take mark s held
  rw [found] at took
  exact ⟨took.1, nofun⟩

theorem steady_takeWhile (mark : Nat) (class? : Char → Bool) :
    Steady mark (takeWhile class? : Scan Unit) := by
  intro s held
  show (takeWhile class? s).2.weight ≤ s.weight ∧
    ∀ a, (takeWhile class? s).1 = .ok a → mark ≤ (takeWhile class? s).2.taken.length
  fun_induction takeWhile class? s with
  | case1 s c next found inClass ih => exact steady_after held found ih
  | case2 s c next found outside => exact steady_giveBack held found
  | case3 s next found => exact steady_stop held found (.ok ())
  | case4 s fault next found => exact steady_fault held found

theorem steady_number (mark : Nat) (start : Position) (pointSeen onlyZero : Bool) :
    Steady mark (number start pointSeen onlyZero : Scan Unit) := by
  intro s held
  show (number start pointSeen onlyZero s).2.weight ≤ s.weight ∧
    ∀ a, (number start pointSeen onlyZero s).1 = .ok a →
      mark ≤ (number start pointSeen onlyZero s).2.taken.length
  fun_induction number start pointSeen onlyZero s with
  | case1 => exact steady_stop held ‹_› (.error _)
  | case2 => exact steady_after held ‹_› ‹_›
  | case3 => exact steady_stop held ‹_› (.error _)
  | case4 => exact steady_after held ‹_› ‹_›
  | case5 => exact steady_giveBack held ‹_›
  | case6 => exact steady_stop held ‹_› (.ok ())
  | case7 => exact steady_fault held ‹_›

theorem steady_string (mark : Nat) (start : Position) (escaped : Bool) (text : List Char) :
    Steady mark (string start escaped text : Scan String) := by
  intro s held
  show (string start escaped text s).2.weight ≤ s.weight ∧
    ∀ a, (string start escaped text s).1 = .ok a →
      mark ≤ (string start escaped text s).2.taken.length
  fun_induction string start escaped text s with
  | case1 => exact steady_stop held ‹_› (.error _)
  | case2 => exact steady_after held ‹_› ‹_›
  | case3 => exact steady_stop held ‹_› (.ok _)
  | case4 => exact steady_after held ‹_› ‹_›
  | case5 => exact steady_stop held ‹_› (.error _)
  | case6 => exact steady_fault held ‹_›

theorem steady_wordGoesOn (mark : Nat) : Steady mark wordGoesOn := by
  intro s held
  unfold wordGoesOn
  split
  · exact steady_peekIs mark isLetter s held
  · exact ⟨Nat.le_refl _, fun _ _ => held⟩

theorem steady_keyword (least : Nat) (first : Char) : Steady least (keyword first) := by
  unfold keyword
  split
  · exact Steady.pure none
  · rename_i rest kind known
    intro s held
    refine Steady.bind (x := takeTextFrom s.taken.length rest) (steady_takeTextFrom held rest)
      (fun matched => ?_) s held
    split
    · refine Steady.bind (steady_wordGoesOn least) fun longer => ?_
      split
      · exact Steady.bind (steady_restore held) fun _ => Steady.pure none
      · exact Steady.pure (some kind)
    · exact Steady.pure none

theorem steady_kindAfter (mark : Nat) (c : Char) : Steady mark (kindAfter c) := by
  unfold kindAfter
  split
  · exact Steady.pure _
  · split
    · refine Steady.bind (steady_takeText mark _) fun found => ?_
      split <;> exact Steady.pure _
    · split
      · exact Steady.bind (steady_takeWhile mark isBlank) fun _ => Steady.pure _
      · split
        · refine Steady.bind (steady_keyword mark _) fun found => ?_
          split
          · exact Steady.pure _
          · exact Steady.bind (steady_takeWhile mark isLetter) fun _ => Steady.pure _
        · exact Steady.pure _

theorem steady_tokenAfter (mark : Nat) (start : Position) (c : Char) :
    Steady mark (tokenAfter start c) := by
  unfold tokenAfter
  split
  · exact Steady.bind (steady_string mark start false []) fun _ => Steady.pure _
  · split
    · exact Steady.bind (steady_number mark start false _) fun _ =>
        Steady.bind (Steady.result _) fun _ => Steady.pure _
    · exact Steady.bind (steady_kindAfter mark c) fun _ =>
        Steady.bind (Steady.result _) fun _ => Steady.pure _

@[simp] theorem left_fresh (s : Scanner) : s.fresh.left = s.left := rfl

theorem next_eq (s : Scanner) :
    s.next = ((token s.fresh).1.mapError ScanFault.reported, (token s.fresh).2) := rfl

theorem next_ok {s : Scanner} {t : Token} (h : s.next.1 = .ok t) : (token s.fresh).1 = .ok t := by
  rw [next_eq] at h
  cases result : (token s.fresh).1 with
  | error fault =>
      rw [result] at h
      cases h
  | ok found =>
      rw [result] at h
      cases h
      rfl

theorem left_next (s : Scanner) :
    s.next.2.left ≤ s.left ∧ ∀ t, s.next.1 = .ok t → t.kind ≠ .eof → s.next.2.left < s.left := by
  have took := (steady_take 0 s.fresh (Nat.zero_le _)).1
  suffices scanned : (token s.fresh).2.left ≤ s.fresh.left ∧
      ∀ t, (token s.fresh).1 = .ok t → t.kind ≠ .eof → (token s.fresh).2.left < s.fresh.left from
    ⟨scanned.1, fun t done => scanned.2 t (next_ok done)⟩
  have empty : s.fresh.weight = s.fresh.left := rfl
  rw [empty] at took
  unfold token
  split
  · rename_i c next found
    have shorter := left_take_lt found
    rw [found] at took
    obtain ⟨lighter, kept⟩ := steady_tokenAfter 1 s.fresh.position c next
      (by rw [taken_take_ok found]; exact Nat.le_add_left 1 _)
    simp only [weight] at took lighter
    refine ⟨by omega, fun t done _ => ?_⟩
    have one := kept t done
    omega
  · rename_i next found
    rw [found] at took
    simp only [weight] at took
    refine ⟨?_, fun t done other => ?_⟩
    · show next.left ≤ _
      omega
    · cases done
      exact absurd rfl other
  · rename_i fault next found
    rw [found] at took
    simp only [weight] at took
    exact ⟨by show next.left ≤ _; omega, nofun⟩

end Scanner

end PredicateLang
