import Mathlib.Data.List.Induction
import PredicateLang.Proofs.Token.Reading

set_option autoImplicit false

namespace PredicateLang

theorem Window.upcoming_of_holds {w : Window} {text : List Char} (holds : w.Holds text) :
    w.upcoming = text := by
  obtain ⟨rest, rfl, feed | ⟨rfl, feed⟩⟩ := holds
  · rw [Window.upcoming, feed, Feed.runes_ofBytes]
  · rw [Window.upcoming, feed, Feed.runes_nil]

theorem Window.holds_of_unread? {w back : Window} {text : List Char} (holds : w.Holds text)
    (stepped : w.unread? = some back) : ∃ c, back.Holds (c :: text) := by
  obtain ⟨rest, rfl, feed⟩ := holds
  unfold Window.unread? at stepped
  split at stepped
  · rename_i c behind held
    cases stepped
    exact ⟨c, rest, rfl, feed⟩
  · cases stepped

def beginsIn (class? : Char → Bool) (text : List Char) : Bool := text.head?.any class?

namespace Scanner

structure Faces (s : Scanner) (text : List Char) : Prop where
  holds : s.window.Holds text
  ends : s.finished = true → text = []

theorem Faces.upcoming {s : Scanner} {text : List Char} (faces : s.Faces text) :
    s.upcoming = text :=
  Window.upcoming_of_holds faces.holds

theorem faces_ofString (keywordBoundary : Bool) (source : String) :
    (ofString keywordBoundary source).Faces source.toList :=
  ⟨Window.holds_ofString source, fun finished => by cases finished⟩

structure Midway (keywordBoundary : Bool) (start : Position) (word rest : List Char)
    (s : Scanner) : Prop where
  coupled : Coupled start (word ++ rest) s
  spelled : s.word = word
  faces : s.Faces rest
  boundary : s.keywordBoundary = keywordBoundary

variable {keywordBoundary : Bool} {start : Position} {word rest : List Char} {s : Scanner}

theorem Midway.mark (mid : Midway keywordBoundary start word rest s) :
    s.taken.length = word.length := by
  simpa [Scanner.word] using congrArg List.length mid.spelled

theorem Midway.placed (mid : Midway keywordBoundary start word rest s) :
    s.position = start.advanceOver word := by
  rw [mid.coupled.placed, mid.spelled]

theorem take_cons {c : Char} (mid : Midway keywordBoundary start word (c :: rest) s) :
    ∃ next, take s = (.ok (some c), next) ∧
      Midway keywordBoundary start (word ++ [c]) rest next := by
  obtain ⟨coupled, spelled, ⟨holds, ends⟩, boundary⟩ := mid
  have running : s.finished = false := by
    cases finished : s.finished with
    | true => cases ends finished
    | false => rfl
  obtain ⟨window, read, behind⟩ := Window.read_of_holds_cons holds
  have found : take s = (.ok (some c), { s with
      window := window
      taken := (s.position, c) :: s.taken
      position := s.position.advance c }) := by
    simp [take, running, read]
  refine ⟨_, found, ?_, ?_, ⟨behind, fun finished => by simp [running] at finished⟩, boundary⟩
  · simpa using (coupled_take coupled found).1
  · rw [word_take found, spelled]

theorem take_nil (mid : Midway keywordBoundary start word [] s) :
    ∃ next, take s = (.ok none, next) ∧ Midway keywordBoundary start word [] next := by
  obtain ⟨coupled, spelled, ⟨holds, ends⟩, boundary⟩ := mid
  cases finished : s.finished with
  | true => exact ⟨s, by simp [take, finished], coupled, spelled, ⟨holds, ends⟩, boundary⟩
  | false =>
      obtain ⟨window, read, behind⟩ := Window.read_of_holds_nil holds
      have found : take s = (.ok none, { s with window := window }) := by
        simp [take, finished, read]
      exact ⟨_, found, (coupled_take coupled found).1, spelled, ⟨behind, fun _ => rfl⟩, boundary⟩

theorem giveBack_window {s back : Scanner} (gave : giveBack s = (.ok (), back)) :
    s.window.unread? = some back.window ∧ back.finished = s.finished ∧
      back.keywordBoundary = s.keywordBoundary := by
  unfold giveBack at gave
  split at gave
  · cases gave
  · split at gave
    · cases gave
    · rename_i window stepped
      cases gave
      exact ⟨stepped, rfl, rfl⟩

theorem giveBack_snoc {c : Char} (mid : Midway keywordBoundary start (word ++ [c]) rest s) :
    ∃ back, giveBack s = (.ok (), back) ∧
      Midway keywordBoundary start word (c :: rest) back := by
  obtain ⟨coupled, spelled, faces, boundary⟩ := mid
  have some : s.taken ≠ [] := by
    intro none
    simp [Scanner.word, none] at spelled
  have running : s.finished ≠ true := fun finished => some (coupled.drained finished).1
  obtain ⟨back, gave, kept, dropped⟩ := giveBack_coupled coupled some
  obtain ⟨stepped, sameEnd, sameBoundary⟩ := giveBack_window gave
  have shorter : back.word = word := by
    rw [Scanner.word, List.map_reverse] at spelled ⊢
    rw [dropped, List.map_tail, ← List.dropLast_reverse, spelled, List.dropLast_concat]
  have whole : word ++ [c] ++ rest = word ++ c :: rest := by simp
  rw [whole] at kept
  have left : back.upcoming = c :: rest := by
    have conserved := kept.conserved
    rwa [shorter, List.append_cancel_left_eq] at conserved
  obtain ⟨d, holds⟩ := Window.holds_of_unread? faces.holds stepped
  rw [← Window.upcoming_of_holds holds] at holds
  rw [Scanner.upcoming] at left
  rw [left] at holds
  refine ⟨back, gave, kept, shorter, ⟨holds, fun finished => ?_⟩, sameBoundary.trans boundary⟩
  exact absurd (sameEnd.symm.trans finished) running

theorem giveBackMany_append (word more rest : List Char) {s : Scanner}
    (mid : Midway keywordBoundary start (word ++ more) rest s) :
    ∃ back, giveBackMany more.length s = (.ok (), back) ∧
      Midway keywordBoundary start word (more ++ rest) back := by
  induction more using List.reverseRecOn generalizing rest s with
  | nil => exact ⟨s, rfl, by simpa using mid⟩
  | append_singleton more c ih =>
      rw [← List.append_assoc] at mid
      obtain ⟨next, gave, mid'⟩ := giveBack_snoc mid
      obtain ⟨back, gaveMore, mid''⟩ := ih (c :: rest) mid'
      refine ⟨back, ?_, by simpa using mid''⟩
      simp only [List.length_append, List.length_singleton, giveBackMany, bind_apply, gave, gaveMore]

theorem restore_append {more : List Char}
    (mid : Midway keywordBoundary start (word ++ more) rest s) :
    ∃ back, restore word.length s = (.ok (), back) ∧
      Midway keywordBoundary start word (more ++ rest) back := by
  obtain ⟨back, gave, mid'⟩ := giveBackMany_append word more rest mid
  refine ⟨back, ?_, mid'⟩
  have count : s.taken.length - word.length = more.length := by
    rw [mid.mark, List.length_append]
    omega
  rw [← gave, ← count]
  rfl

theorem peekIs_text (class? : Char → Bool) (mid : Midway keywordBoundary start word rest s) :
    ∃ next, peekIs class? s = (.ok (beginsIn class? rest), next) ∧
      Midway keywordBoundary start word rest next := by
  cases rest with
  | nil =>
      obtain ⟨next, found, mid'⟩ := take_nil mid
      refine ⟨next, ?_, mid'⟩
      simp only [peekIs, bind_apply, found]
      rfl
  | cons c rest =>
      obtain ⟨after, found, mid'⟩ := take_cons mid
      obtain ⟨next, gave, mid''⟩ := giveBack_snoc mid'
      refine ⟨next, ?_, mid''⟩
      simp only [peekIs, bind_apply, found, gave]
      rfl

theorem wordGoesOn_text (mid : Midway keywordBoundary start word rest s) :
    ∃ next, wordGoesOn s = (.ok (keywordBoundary && beginsIn isLetter rest), next) ∧
      Midway keywordBoundary start word rest next := by
  cases boundary : keywordBoundary with
  | true =>
      obtain ⟨next, found, mid'⟩ := peekIs_text isLetter mid
      refine ⟨next, ?_, boundary ▸ mid'⟩
      rw [wordGoesOn, mid.boundary, boundary, if_pos rfl, found, Bool.true_and]
  | false =>
      refine ⟨s, ?_, boundary ▸ mid⟩
      simp [wordGoesOn, mid.boundary, boundary]

theorem takeTextFrom_matches (mark : Nat) (expected : List Char)
    (mid : Midway keywordBoundary start word (expected ++ rest) s) :
    ∃ next, takeTextFrom mark expected s = (.ok true, next) ∧
      Midway keywordBoundary start (word ++ expected) rest next := by
  induction expected generalizing word s with
  | nil => exact ⟨s, rfl, by simpa using mid⟩
  | cons c expected ih =>
      obtain ⟨after, found, mid'⟩ := take_cons mid
      obtain ⟨next, matched, mid''⟩ := ih mid'
      refine ⟨next, ?_, by simpa using mid''⟩
      simp only [takeTextFrom, bind_apply, found, if_true, matched]

theorem takeTextFrom_differs (more : List Char) {expected : List Char} (differs : ¬ expected <+: rest)
    (mid : Midway keywordBoundary start (word ++ more) rest s) :
    ∃ next, takeTextFrom word.length expected s = (.ok false, next) ∧
      Midway keywordBoundary start word (more ++ rest) next := by
  -- `more` is what was already found to agree, and is given back as well.
  induction expected generalizing more rest s with
  | nil => exact absurd List.nil_prefix differs
  | cons c expected ih =>
      cases rest with
      | nil =>
          obtain ⟨after, found, mid'⟩ := take_nil mid
          obtain ⟨next, gave, mid''⟩ := restore_append mid'
          refine ⟨next, ?_, mid''⟩
          simp only [takeTextFrom, bind_apply, found, reduceCtorEq, if_false, gave]
          rfl
      | cons d rest =>
          obtain ⟨after, found, mid'⟩ := take_cons mid
          rw [List.append_assoc] at mid'
          by_cases same : d = c
          · have later : ¬ expected <+: rest := fun front =>
              differs (List.cons_prefix_cons.2 ⟨same.symm, front⟩)
            obtain ⟨next, missed, mid''⟩ := ih _ later mid'
            refine ⟨next, ?_, by simpa using mid''⟩
            simp only [takeTextFrom, bind_apply, found, same, if_true, missed]
          · obtain ⟨next, gave, mid''⟩ := restore_append mid'
            refine ⟨next, ?_, by simpa using mid''⟩
            simp only [takeTextFrom, bind_apply, found, Option.some.injEq, same, if_false, gave]
            rfl

theorem takeWhile_eq (class? : Char → Bool) :
    takeWhile class? = (do
      match ← take with
      | some c => if class? c then takeWhile class? else giveBack
      | none => pure () : Scan Unit) := by
  funext s
  rw [takeWhile, bind_apply]
  split <;> rename_i found <;> rw [found]
  · simp only
    split <;> rfl
  · rfl

theorem takeWhile_text (class? : Char → Bool)
    (mid : Midway keywordBoundary start word rest s) :
    ∃ next, takeWhile class? s = (.ok (), next) ∧
      Midway keywordBoundary start (word ++ rest.takeWhile class?) (rest.dropWhile class?) next := by
  induction rest generalizing word s with
  | nil =>
      obtain ⟨next, found, mid'⟩ := take_nil mid
      refine ⟨next, ?_, by simpa using mid'⟩
      rw [takeWhile_eq, bind_apply, found]
      rfl
  | cons c rest ih =>
      obtain ⟨after, found, mid'⟩ := take_cons mid
      by_cases inClass : class? c = true
      · obtain ⟨next, took, mid''⟩ := ih mid'
        refine ⟨next, ?_, by simpa [inClass] using mid''⟩
        rw [takeWhile_eq, bind_apply, found]
        simp only [inClass, if_true]
        exact took
      · obtain ⟨next, gave, mid''⟩ := giveBack_snoc mid'
        refine ⟨next, ?_, by simpa [inClass] using mid''⟩
        rw [takeWhile_eq, bind_apply, found]
        simp only [inClass]
        exact gave

end Scanner

end PredicateLang
