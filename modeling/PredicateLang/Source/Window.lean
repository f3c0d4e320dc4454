import PredicateLang.Source.Feed
import PredicateLang.Source.Utf8

set_option autoImplicit false

namespace PredicateLang

inductive ReadFault
  | invalidUtf8
  | failed (reason : String)
  deriving DecidableEq

def ReadFault.message : ReadFault → String
  | .invalidUtf8 => "invalid utf-8 in source"
  | .failed reason => reason

structure Window where
  -- The characters behind the cursor stand nearest first.
  feed : Feed
  behind : List Char
  ahead : List Char
  -- Steps back since the last read.
  pending : Nat

namespace Window

def ofFeed (feed : Feed) : Window := ⟨feed, [], [], 0⟩

def ofString (s : String) : Window := ofFeed (Feed.ofString s)

def buffered (w : Window) : Nat := w.behind.length + w.ahead.length

def size (w : Window) : Nat := w.ahead.length + w.feed.size

def decodeAfter (lead : UInt8) (feed : Feed) : Except ReadFault Char × Feed :=
  -- The first byte says how many follow, and these are all read before they are looked at.
  match Utf8.width? lead with
  | none => (.error .invalidUtf8, feed)
  | some width =>
      match feed.take (width - 1) with
      | (.error reason, rest) => (.error (.failed reason), rest)
      | (.ok tail, rest) =>
          match Utf8.decode? (lead :: tail) with
          | none => (.error .invalidUtf8, rest)
          | some c => (.ok c, rest)

def pull (feed : Feed) : Except ReadFault (Option Char) × Feed :=
  match feed.next with
  | (.error reason, rest) => (.error (.failed reason), rest)
  | (.ok none, rest) => (.ok none, rest)
  | (.ok (some lead), rest) =>
      match decodeAfter lead rest with
      | (.error fault, rest) => (.error fault, rest)
      | (.ok c, rest) => (.ok (some c), rest)

def read (w : Window) : Except ReadFault (Option Char) × Window :=
  match w.ahead with
  | c :: ahead => (.ok (some c), ⟨w.feed, c :: w.behind, ahead, 0⟩)
  | [] =>
      match pull w.feed with
      | (.ok (some c), feed) => (.ok (some c), ⟨feed, c :: w.behind, [], 0⟩)
      | (result, feed) => (result, ⟨feed, w.behind, [], 0⟩)

def pullRune (feed : Feed) : Except ReadFault (Option (Char × Nat)) × Feed :=
  -- A character comes with the number of bytes that the first of them announced.
  match feed.next with
  | (.error reason, rest) => (.error (.failed reason), rest)
  | (.ok none, rest) => (.ok none, rest)
  | (.ok (some lead), rest) =>
      match decodeAfter lead rest with
      | (.error fault, rest) => (.error fault, rest)
      | (.ok c, rest) => (.ok ((Utf8.width? lead).map fun width => (c, width)), rest)

def readRune (w : Window) : Except ReadFault (Option (Char × Nat)) × Window :=
  match w.ahead with
  | c :: ahead => (.ok (some (c, c.utf8Size)), ⟨w.feed, c :: w.behind, ahead, 0⟩)
  | [] =>
      match pullRune w.feed with
      | (.ok (some (c, width)), feed) =>
          (.ok (some (c, width)), ⟨feed, c :: w.behind, [], 0⟩)
      | (result, feed) => (result, ⟨feed, w.behind, [], 0⟩)

/-- Gives the last character back; fails at the floor of the window. -/
def unread? (w : Window) : Option Window :=
  match w.behind with
  | c :: behind => some ⟨w.feed, behind, c :: w.ahead, w.pending + 1⟩
  | [] => none

def floorMessage : String := "nothing to unread"

def forget (w : Window) : Window := { w with behind := [] }

theorem size_decodeAfter_le (lead : UInt8) (feed : Feed) :
    (decodeAfter lead feed).2.size ≤ feed.size := by
  unfold decodeAfter
  split
  · exact Nat.le_refl _
  · rename_i width _
    have tail := Feed.size_take_le (width - 1) feed
    split
    · simp_all
    · split <;> simp_all

theorem size_pull_lt {feed rest : Feed} {c : Char} (h : pull feed = (.ok (some c), rest)) :
    rest.size < feed.size := by
  unfold pull at h
  split at h
  · simp at h
  · simp at h
  · rename_i lead after front
    have first := Feed.size_next_lt front
    have more := size_decodeAfter_le lead after
    split at h
    · simp at h
    · simp_all; omega

theorem size_pull_le (feed : Feed) : (pull feed).2.size ≤ feed.size := by
  have front := Feed.size_next_le feed
  unfold pull
  split
  · simp_all
  · simp_all
  · rename_i lead after found
    have more := size_decodeAfter_le lead after
    rw [found] at front
    split <;> simp_all <;> omega

theorem size_read_le (w : Window) : w.read.2.size ≤ w.size := by
  have pulled := size_pull_le w.feed
  unfold read
  split
  · rename_i held
    simp [size, held]
  · rename_i held
    split <;> simp_all [size]

theorem size_unread? {w back : Window} (h : w.unread? = some back) : back.size = w.size + 1 := by
  unfold unread? at h
  split at h
  · cases h
    simp [size]
    omega
  · cases h

theorem size_read_lt {w next : Window} {c : Char} (h : w.read = (.ok (some c), next)) :
    next.size < w.size := by
  unfold read at h
  split at h
  · rename_i d ahead held
    obtain ⟨rfl, rfl⟩ := by simpa using h
    simp [size, held]
  · rename_i held
    split at h
    · rename_i d feed pulled
      obtain ⟨rfl, rfl⟩ := by simpa using h
      simpa [size, held] using size_pull_lt pulled
    · rename_i other feed differs pulled
      obtain ⟨same, -⟩ := by simpa using h
      exact absurd (same ▸ rfl) (differs c)

end Window

end PredicateLang
