import PredicateLang.Proofs.Source.Decoding

set_option autoImplicit false

namespace PredicateLang

inductive WindowStep
  | read
  | unread
  | forget
  deriving DecidableEq

inductive WindowAnswer
  | read (result : Except ReadFault (Option (Char × Nat)))
  | done
  | refused

def Window.perform : WindowStep → Window → WindowAnswer × Window
  | .read, w => (.read w.readRune.1, w.readRune.2)
  | .unread, w =>
      match w.unread? with
      | some back => (.done, back)
      | none => (.refused, w)
  | .forget, w => (.done, w.forget)

/-- The marks are counted from the beginning of the tape, and the feed is what was not pulled yet. -/
structure Tape where
  runes : List (Char × Nat)
  floor : Nat
  cursor : Nat
  feed : Feed

namespace Tape

def start (feed : Feed) : Tape := ⟨[], 0, 0, feed⟩

def pulled (t : Tape) : Except ReadFault (Option (Char × Nat)) × Feed → Tape
  | (.ok (some rune), feed) => ⟨t.runes ++ [rune], t.floor, t.cursor + 1, feed⟩
  | (_, feed) => { t with feed := feed }

def perform : WindowStep → Tape → WindowAnswer × Tape
  | .read, t =>
      match t.runes[t.cursor]? with
      | some rune => (.read (.ok (some rune)), { t with cursor := t.cursor + 1 })
      | none => (.read (Window.pullRune t.feed).1, t.pulled (Window.pullRune t.feed))
  | .unread, t =>
      if t.cursor = t.floor then (.refused, t) else (.done, { t with cursor := t.cursor - 1 })
  | .forget, t => (.done, { t with floor := t.cursor })

end Tape

def answers {α : Type} (perform : WindowStep → α → WindowAnswer × α) :
    List WindowStep → α → List (WindowStep × WindowAnswer) × α
  | [], a => ([], a)
  | step :: steps, a =>
      match perform step a with
      | (answer, next) =>
          match answers perform steps next with
          | (others, last) => ((step, answer) :: others, last)

namespace Window

end Window

namespace Tape

end Tape

variable {feed : Feed} {history : List (WindowStep × WindowAnswer)} {w : Window} {t : Tape}

end PredicateLang
