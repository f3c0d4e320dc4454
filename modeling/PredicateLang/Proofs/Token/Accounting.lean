import PredicateLang.Proofs.Source.Runes
import PredicateLang.Token.Supply

set_option autoImplicit false

/-!
# Accounting for the characters of a token

While a token is scanned, what it has taken and what lies behind the cursor of the window are the same
characters. Every step keeps them so, and keeps them together with the characters still to come what they
were when the token began. In particular whatever is given back is there to be given back.
-/

namespace PredicateLang

namespace Scanner

def word (s : Scanner) : List Char := s.taken.reverse.map Prod.snd

def upcoming (s : Scanner) : List Char := s.window.upcoming

def Marked (start : Position) : List (Position × Char) → Prop
  -- Every character stands where those taken before it lead from the start.
  | [] => True
  | (position, _) :: earlier =>
      position = start.advanceOver (earlier.reverse.map Prod.snd) ∧ Marked start earlier

/-- A token that began at a position, before these characters. -/
structure Coupled (start : Position) (whole : List Char) (s : Scanner) : Prop where
  -- What could be given back to the window is just what the token has taken.
  held : s.window.behind = s.taken.map Prod.snd
  marked : Marked start s.taken
  placed : s.position = start.advanceOver s.word
  conserved : s.word ++ s.upcoming = whole
  drained : s.finished = true → s.taken = [] ∧ s.upcoming = []

-- Nothing was missing that had to be given back.
def Supplied {α : Type} (result : Except ScanFault α) : Prop :=
  ∀ position, result ≠ .error (.floor position)

theorem Supplied.ok {α : Type} (a : α) : Supplied (.ok a) := by
  intro position floor
  cases floor

theorem Supplied.lexical {α : Type} (fault : LexFault) :
    Supplied (.error (.lexical fault) : Except ScanFault α) := by
  intro position floor
  cases floor

theorem Supplied.error {α β : Type} {fault : ScanFault}
    (sound : Supplied (.error fault : Except ScanFault α)) :
    Supplied (.error fault : Except ScanFault β) := by
  intro position floor
  cases floor
  exact sound position rfl

def Faithful {α : Type} (x : Scan α) : Prop :=
  ∀ (start : Position) (whole : List Char) (s : Scanner), Coupled start whole s →
    Coupled start whole (x s).2 ∧ Supplied (x s).1

theorem Faithful.result {α : Type} (a : Scanner → α) :
    Faithful (fun s => (.ok (a s), s) : Scan α) := by
  intro start whole s coupled
  exact ⟨coupled, Supplied.ok _⟩

theorem Faithful.pure {α : Type} (a : α) : Faithful (pure a : Scan α) :=
  Faithful.result fun _ => a

theorem Faithful.bind {α β : Type} {x : Scan α} {f : α → Scan β} (first : Faithful x)
    (second : ∀ a, Faithful (f a)) : Faithful (x >>= f) := by
  intro start whole s coupled
  obtain ⟨kept, sound⟩ := first start whole s coupled
  rw [bind_apply]
  cases found : x s with
  | mk result next =>
      rw [found] at kept sound
      cases result with
      | error fault => exact ⟨kept, sound.error⟩
      | ok a => exact second a start whole next kept

theorem taken_take_some {s next : Scanner} {c : Char} (h : take s = (.ok (some c), next)) :
    next.taken = (s.position, c) :: s.taken := by
  unfold take at h
  split at h
  · cases h
  · split at h <;> cases h
    rfl

theorem word_take {s next : Scanner} {c : Char} (h : take s = (.ok (some c), next)) :
    next.word = s.word ++ [c] := by
  simp [word, taken_take_some h]

theorem taken_take_none {s next : Scanner} (h : take s = (.ok none, next)) :
    next.taken = s.taken := by
  unfold take at h
  split at h
  · cases h
    rfl
  · split at h <;> cases h
    rfl

theorem faithful_take : Faithful take := by
  intro start whole s coupled
  obtain ⟨held, marked, placed, conserved, drained⟩ := coupled
  unfold take
  split
  · exact ⟨⟨held, marked, placed, conserved, drained⟩, Supplied.ok _⟩
  · rename_i running
    split
    · rename_i c window found
      obtain ⟨front, behind⟩ := Window.read_some found
      refine ⟨⟨?_, ⟨placed, marked⟩, ?_, ?_, ?_⟩, Supplied.ok _⟩
      · simp [behind, held]
      · simp [word, placed, Position.advanceOver_append]
      · simpa [word, upcoming, front] using conserved
      · simp [running]
    · rename_i window found
      obtain ⟨front, rest, behind⟩ := Window.read_none found
      refine ⟨⟨?_, marked, placed, ?_, ?_⟩, Supplied.ok _⟩
      · simp [behind, held]
      · simpa [word, upcoming, front, rest] using conserved
      · simp [running]
    · rename_i fault window found
      obtain ⟨rest, behind⟩ := Window.read_error found
      refine ⟨⟨?_, marked, placed, ?_, ?_⟩, Supplied.lexical _⟩
      · simp [behind, held]
      · simpa [word, upcoming, rest] using conserved
      · simp [running]

theorem coupled_take {start : Position} {whole : List Char} {s next : Scanner}
    {result : Except ScanFault (Option Char)} (coupled : Coupled start whole s)
    (found : take s = (result, next)) :
    Coupled start whole next ∧ Supplied result := by
  have kept := faithful_take start whole s coupled
  rwa [found] at kept

theorem upcoming_take_none {start : Position} {whole : List Char} {s next : Scanner}
    (coupled : Coupled start whole s) (h : take s = (.ok none, next)) : next.upcoming = [] := by
  unfold take at h
  split at h
  · rename_i finished
    cases h
    exact (coupled.drained finished).2
  · split at h
    · cases h
    · rename_i window found
      cases h
      exact (Window.read_none found).2.1
    · cases h

theorem giveBack_coupled {start : Position} {whole : List Char} {s : Scanner}
    (coupled : Coupled start whole s) (some : s.taken ≠ []) :
    ∃ back, giveBack s = (.ok (), back) ∧ Coupled start whole back ∧ back.taken = s.taken.tail := by
  obtain ⟨held, marked, placed, conserved, drained⟩ := coupled
  cases top : s.taken with
  | nil => exact absurd top some
  | cons entry earlier =>
      obtain ⟨position, c⟩ := entry
      rw [top] at held marked
      obtain ⟨window, stepped, behind, upcoming'⟩ := Window.unread?_of_behind held
      refine ⟨{ s with window := window, taken := earlier, position := position }, ?_, ?_, rfl⟩
      · simp [giveBack, top, stepped]
      · refine ⟨behind, marked.2, marked.1, ?_, ?_⟩
        · simpa [word, upcoming, top, upcoming'] using conserved
        · -- A finished scanner holds nothing that could be given back.
          intro finished
          exact absurd (drained finished).1 some

theorem giveBackMany_coupled {start : Position} {whole : List Char} (count : Nat) {s : Scanner}
    (coupled : Coupled start whole s) (enough : count ≤ s.taken.length) :
    ∃ back, giveBackMany count s = (.ok (), back) ∧ Coupled start whole back ∧
      back.taken = s.taken.drop count := by
  induction count generalizing s with
  | zero => exact ⟨s, rfl, coupled, rfl⟩
  | succ count ih =>
      have some : s.taken ≠ [] := by
        intro none
        simp [none] at enough
      obtain ⟨next, gave, kept, dropped⟩ := giveBack_coupled coupled some
      have rest : count ≤ next.taken.length := by
        rw [dropped, List.length_tail]
        omega
      obtain ⟨back, gaveRest, done, droppedRest⟩ := ih kept rest
      refine ⟨back, ?_, done, ?_⟩
      · simp [giveBackMany, bind_apply, gave, gaveRest]
      · rw [droppedRest, dropped, List.drop_tail]

theorem restore_coupled {start : Position} {whole : List Char} (mark : Nat) {s : Scanner}
    (coupled : Coupled start whole s) :
    ∃ back, restore mark s = (.ok (), back) ∧ Coupled start whole back ∧
      back.taken = s.taken.drop (s.taken.length - mark) := by
  obtain ⟨back, gave, kept, dropped⟩ :=
    giveBackMany_coupled (s.taken.length - mark) coupled (Nat.sub_le _ _)
  exact ⟨back, gave, kept, dropped⟩

theorem faithful_restore (mark : Nat) : Faithful (restore mark) := by
  intro start whole s coupled
  obtain ⟨back, gave, kept, -⟩ := restore_coupled mark coupled
  rw [gave]
  exact ⟨kept, Supplied.ok _⟩

theorem faithful_takeTextFrom (mark : Nat) (expected : List Char) :
    Faithful (takeTextFrom mark expected) := by
  induction expected with
  | nil => exact Faithful.pure true
  | cons c rest ih =>
      refine Faithful.bind faithful_take fun found => ?_
      split
      · exact ih
      · exact Faithful.bind (faithful_restore mark) fun _ => Faithful.pure false

theorem faithful_takeText (expected : List Char) : Faithful (takeText expected) :=
  Faithful.bind (Faithful.result _) fun mark => faithful_takeTextFrom mark expected

theorem faithful_lookahead {start : Position} {whole : List Char} {s next : Scanner} {c : Char}
    (coupled : Coupled start whole s) (found : take s = (.ok (some c), next)) :
    ∃ back, giveBack next = (.ok (), back) ∧ Coupled start whole back ∧ back.taken = s.taken := by
  have kept := (coupled_take coupled found).1
  have longer := taken_take_some found
  obtain ⟨back, gave, restored, dropped⟩ := giveBack_coupled kept (by simp [longer])
  exact ⟨back, gave, restored, by simp [dropped, longer]⟩

theorem coupled_fault {α : Type} {start : Position} {whole : List Char} {s next : Scanner}
    {fault : ScanFault} (coupled : Coupled start whole s) (found : take s = (.error fault, next)) :
    Coupled start whole next ∧ Supplied (.error fault : Except ScanFault α) := by
  obtain ⟨kept, sound⟩ := coupled_take coupled found
  exact ⟨kept, sound.error⟩

theorem faithful_peekIs (class? : Char → Bool) : Faithful (peekIs class?) := by
  intro start whole s coupled
  simp only [peekIs, bind_apply]
  cases found : take s with
  | mk result next =>
      rcases result with fault | _ | c
      · exact coupled_fault coupled found
      · exact ⟨(coupled_take coupled found).1, Supplied.ok _⟩
      · obtain ⟨back, gave, kept, -⟩ := faithful_lookahead coupled found
        simp only [bind_apply, gave]
        exact ⟨kept, Supplied.ok _⟩

theorem faithful_takeWhile (class? : Char → Bool) : Faithful (takeWhile class? : Scan Unit) := by
  intro start whole s coupled
  show Coupled start whole (takeWhile class? s).2 ∧ Supplied (takeWhile class? s).1
  fun_induction takeWhile class? s with
  | case1 s c next found inClass ih => exact ih (coupled_take coupled found).1
  | case2 s c next found outside =>
      obtain ⟨back, gave, kept, -⟩ := faithful_lookahead coupled found
      rw [gave]
      exact ⟨kept, Supplied.ok _⟩
  | case3 s next found => exact ⟨(coupled_take coupled found).1, Supplied.ok _⟩
  | case4 s fault next found => exact coupled_fault coupled found

theorem faithful_number (start : Position) (pointSeen onlyZero : Bool) :
    Faithful (number start pointSeen onlyZero : Scan Unit) := by
  intro origin whole s coupled
  show Coupled origin whole (number start pointSeen onlyZero s).2 ∧
    Supplied (number start pointSeen onlyZero s).1
  fun_induction number start pointSeen onlyZero s with
  | case1 => exact ⟨(coupled_take coupled ‹_›).1, Supplied.lexical _⟩
  | case2 pointSeen onlyZero s c next found _ _ ih => exact ih (coupled_take coupled found).1
  | case3 => exact ⟨(coupled_take coupled ‹_›).1, Supplied.lexical _⟩
  | case4 pointSeen onlyZero s next _ found _ ih => exact ih (coupled_take coupled found).1
  | case5 pointSeen onlyZero s c next found =>
      obtain ⟨back, gave, kept, -⟩ := faithful_lookahead coupled found
      rw [gave]
      exact ⟨kept, Supplied.ok _⟩
  | case6 => exact ⟨(coupled_take coupled ‹_›).1, Supplied.ok _⟩
  | case7 => exact coupled_fault coupled ‹_›

theorem faithful_string (start : Position) (escaped : Bool) (text : List Char) :
    Faithful (string start escaped text : Scan String) := by
  intro origin whole s coupled
  show Coupled origin whole (string start escaped text s).2 ∧
    Supplied (string start escaped text s).1
  fun_induction string start escaped text s with
  | case1 => exact ⟨(coupled_take coupled ‹_›).1, Supplied.lexical _⟩
  | case2 text s next found _ ih => exact ih (coupled_take coupled found).1
  | case3 => exact ⟨(coupled_take coupled ‹_›).1, Supplied.ok _⟩
  | case4 escaped text s c next found _ _ ih => exact ih (coupled_take coupled found).1
  | case5 => exact ⟨(coupled_take coupled ‹_›).1, Supplied.lexical _⟩
  | case6 => exact coupled_fault coupled ‹_›

theorem faithful_wordGoesOn : Faithful wordGoesOn := by
  intro start whole s coupled
  unfold wordGoesOn
  split
  · exact faithful_peekIs isLetter start whole s coupled
  · exact ⟨coupled, Supplied.ok _⟩

theorem faithful_keyword (first : Char) : Faithful (keyword first) := by
  unfold keyword
  split
  · exact Faithful.pure none
  · rename_i rest kind known
    refine Faithful.bind (Faithful.result _) fun mark => ?_
    refine Faithful.bind (faithful_takeTextFrom mark rest) fun matched => ?_
    split
    · refine Faithful.bind faithful_wordGoesOn fun longer => ?_
      split
      · exact Faithful.bind (faithful_restore mark) fun _ => Faithful.pure none
      · exact Faithful.pure (some kind)
    · exact Faithful.pure none

theorem faithful_kindAfter (c : Char) : Faithful (kindAfter c) := by
  unfold kindAfter
  split
  · exact Faithful.pure _
  · split
    · refine Faithful.bind (faithful_takeText _) fun found => ?_
      split <;> exact Faithful.pure _
    · split
      · exact Faithful.bind (faithful_takeWhile isBlank) fun _ => Faithful.pure _
      · split
        · refine Faithful.bind (faithful_keyword c) fun found => ?_
          split
          · exact Faithful.pure _
          · exact Faithful.bind (faithful_takeWhile isLetter) fun _ => Faithful.pure _
        · exact Faithful.pure _

theorem faithful_tokenAfter (start : Position) (c : Char) : Faithful (tokenAfter start c) := by
  unfold tokenAfter
  split
  · exact Faithful.bind (faithful_string start false []) fun _ => Faithful.pure _
  · split
    · exact Faithful.bind (faithful_number start false _) fun _ =>
        Faithful.bind (Faithful.result _) fun _ => Faithful.pure _
    · exact Faithful.bind (faithful_kindAfter c) fun _ =>
        Faithful.bind (Faithful.result _) fun _ => Faithful.pure _

end Scanner

end PredicateLang
