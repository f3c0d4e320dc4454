set_option autoImplicit false

/-!
# Byte feeds

What the remaining reads of a byte stream give, one event after the other. An interrupted read is tried
again; a failed one is reported once, and the next read goes on with what comes after it.
-/

namespace PredicateLang

inductive ReadEvent
  | bytes (chunk : List UInt8)
  | interrupted
  | failed (reason : String)
  deriving DecidableEq

abbrev Feed := List ReadEvent

namespace Feed

def ofBytes (bytes : List UInt8) : Feed := [.bytes bytes]

def ofString (s : String) : Feed := ofBytes s.toUTF8.toList

def size : Feed → Nat
  | [] => 0
  | .bytes chunk :: rest => chunk.length + size rest
  | .interrupted :: rest => size rest
  | .failed _ :: rest => size rest

def next : Feed → Except String (Option UInt8) × Feed
  | [] => (.ok none, [])
  | .bytes [] :: rest => next rest
  | .bytes (b :: chunk) :: rest => (.ok (some b), .bytes chunk :: rest)
  | .interrupted :: rest => next rest
  | .failed reason :: rest => (.error reason, rest)

def take : Nat → Feed → Except String (List UInt8) × Feed
  -- As many of the next bytes as there are, up to a count. Bytes before a failure are lost.
  | 0, feed => (.ok [], feed)
  | count + 1, feed =>
      match feed.next with
      | (.error reason, rest) => (.error reason, rest)
      | (.ok none, rest) => (.ok [], rest)
      | (.ok (some b), rest) =>
          match take count rest with
          | (.error reason, rest) => (.error reason, rest)
          | (.ok more, rest) => (.ok (b :: more), rest)

theorem size_next_le (feed : Feed) : feed.next.2.size ≤ feed.size := by
  fun_induction next feed <;> simp_all [size]

theorem size_next_lt {feed rest : Feed} {b : UInt8} (h : feed.next = (.ok (some b), rest)) :
    rest.size < feed.size := by
  fun_induction next feed <;> simp_all [size]
  obtain ⟨rfl, rfl⟩ := h
  simp [size]

theorem size_take_le (count : Nat) (feed : Feed) : (feed.take count).2.size ≤ feed.size := by
  induction count generalizing feed with
  | zero => simp [take]
  | succ count ih =>
      have front := size_next_le feed
      simp only [take]
      split
      · simp_all
      · simp_all
      · rename_i b rest found
        have more := ih rest
        rw [found] at front
        split <;> simp_all <;> omega

end Feed

end PredicateLang
