import PredicateLang.Source.Window

set_option autoImplicit false

namespace PredicateLang

namespace Feed

theorem length_next_le (feed : Feed) : feed.next.2.length ≤ feed.length := by
  fun_induction next feed <;> simp_all <;> omega

theorem length_next_error {feed rest : Feed} {reason : String}
    (h : feed.next = (.error reason, rest)) : rest.length < feed.length := by
  fun_induction next feed <;> simp_all <;> omega

theorem next_none {feed rest : Feed} (h : feed.next = (.ok none, rest)) : rest = [] := by
  fun_induction next feed <;> simp_all

theorem length_take_le (count : Nat) (feed : Feed) : (feed.take count).2.length ≤ feed.length := by
  induction count generalizing feed with
  | zero => simp [take]
  | succ count ih =>
      have front := length_next_le feed
      simp only [take]
      split
      · simp_all
      · simp_all
      · rename_i b rest found
        have more := ih rest
        rw [found] at front
        split <;> simp_all <;> omega

-- A failing read takes no byte, so the bytes alone do not bound the reads that are left.
def extent (feed : Feed) : Nat := feed.size + feed.length

end Feed

namespace Window

theorem length_decodeAfter_le (lead : UInt8) (feed : Feed) :
    (decodeAfter lead feed).2.length ≤ feed.length := by
  unfold decodeAfter
  split
  · exact Nat.le_refl _
  · rename_i width _
    have tail := Feed.length_take_le (width - 1) feed
    split
    · simp_all
    · split <;> simp_all

theorem extent_pull_some {feed rest : Feed} {c : Char} (h : pull feed = (.ok (some c), rest)) :
    rest.extent < feed.extent := by
  have smaller := size_pull_lt h
  have front := Feed.length_next_le feed
  unfold pull at h
  split at h
  · simp at h
  · simp at h
  · rename_i lead after found
    have more := length_decodeAfter_le lead after
    rw [found] at front
    split at h
    · simp at h
    · simp_all [Feed.extent]
      omega

theorem extent_pull_error {feed rest : Feed} {fault : ReadFault}
    (h : pull feed = (.error fault, rest)) : rest.extent < feed.extent := by
  have front := Feed.size_next_le feed
  have length := Feed.length_next_le feed
  unfold pull at h
  split at h
  · rename_i reason after found
    have shorter := Feed.length_next_error found
    rw [found] at front
    simp_all [Feed.extent]
    omega
  · simp at h
  · rename_i lead after found
    have smaller := Feed.size_next_lt found
    have tail := size_decodeAfter_le lead after
    have tailLength := length_decodeAfter_le lead after
    rw [found] at length
    split at h
    · simp_all [Feed.extent]
      omega
    · simp at h

theorem pull_none {feed rest : Feed} (h : pull feed = (.ok none, rest)) : rest = [] := by
  unfold pull at h
  split at h
  · simp at h
  · rename_i after found
    cases h
    exact Feed.next_none found
  · split at h <;> simp at h

end Window

namespace Feed

/-- Every character that successive reads deliver, over all the faults between them. -/
def runes (feed : Feed) : List Char :=
  match _found : Window.pull feed with
  | (.ok (some c), rest) => c :: runes rest
  | (.ok none, _) => []
  | (.error _, rest) => runes rest
termination_by feed.extent
decreasing_by
  · exact Window.extent_pull_some _found
  · exact Window.extent_pull_error _found

theorem runes_some {feed rest : Feed} {c : Char} (h : Window.pull feed = (.ok (some c), rest)) :
    feed.runes = c :: rest.runes := by
  rw [runes]
  split <;> simp_all

theorem runes_none {feed rest : Feed} (h : Window.pull feed = (.ok none, rest)) :
    feed.runes = [] := by
  rw [runes]
  split <;> simp_all

theorem runes_error {feed rest : Feed} {fault : ReadFault}
    (h : Window.pull feed = (.error fault, rest)) : feed.runes = rest.runes := by
  rw [runes]
  split <;> simp_all

@[simp] theorem runes_nil : runes [] = [] := runes_none rfl

end Feed

namespace Window

def upcoming (w : Window) : List Char := w.ahead ++ w.feed.runes

theorem read_some {w next : Window} {c : Char} (h : w.read = (.ok (some c), next)) :
    w.upcoming = c :: next.upcoming ∧ next.behind = c :: w.behind := by
  unfold read at h
  split at h
  · rename_i d ahead held
    cases h
    simp [upcoming, held]
  · rename_i held
    split at h
    · rename_i d feed pulled
      cases h
      simp [upcoming, held, Feed.runes_some pulled]
    · rename_i other feed differs pulled
      cases h
      exact absurd rfl (differs c)

theorem read_none {w next : Window} (h : w.read = (.ok none, next)) :
    w.upcoming = [] ∧ next.upcoming = [] ∧ next.behind = w.behind := by
  unfold read at h
  split at h
  · cases h
  · rename_i held
    split at h
    · cases h
    · rename_i other feed differs pulled
      cases h
      simp [upcoming, held, Feed.runes_none pulled, pull_none pulled]

theorem read_error {w next : Window} {fault : ReadFault} (h : w.read = (.error fault, next)) :
    next.upcoming = w.upcoming ∧ next.behind = w.behind := by
  unfold read at h
  split at h
  · cases h
  · rename_i held
    split at h
    · cases h
    · rename_i other feed differs pulled
      cases h
      simp [upcoming, held, Feed.runes_error pulled]

theorem unread?_of_behind {w : Window} {c : Char} {behind : List Char}
    (held : w.behind = c :: behind) :
    ∃ back, w.unread? = some back ∧ back.behind = behind ∧ back.upcoming = c :: w.upcoming := by
  refine ⟨⟨w.feed, behind, c :: w.ahead, w.pending + 1⟩, ?_, rfl, rfl⟩
  simp [unread?, held]

end Window

theorem toList_loop (bytes : ByteArray) (i : Nat) (front : List UInt8) :
    ByteArray.toList.loop bytes i front = front.reverse ++ bytes.data.toList.drop i := by
  induction i, front using ByteArray.toList.loop.induct bytes with
  | case1 i front inside ih =>
      have bound : i < bytes.data.toList.length := by simpa using inside
      have byte : bytes.get! i = bytes.data.toList[i] := by
        rw [Array.getElem_toList]
        exact getElem!_pos bytes.data i (by simpa using inside)
      rw [ByteArray.toList.loop, if_pos inside, ih, List.drop_eq_getElem_cons bound, byte]
      simp
  | case2 i front outside =>
      have beyond : bytes.data.toList.length ≤ i := by simpa using outside
      rw [ByteArray.toList.loop, if_neg outside, List.drop_eq_nil_of_le beyond]
      simp

theorem toList_toUTF8 (s : String) : s.toUTF8.toList = s.toList.flatMap String.utf8EncodeChar := by
  have bytes : s.toUTF8 = s.toList.utf8Encode := by simp
  rw [ByteArray.toList, toList_loop, bytes, List.utf8Encode]
  simp

namespace Utf8

theorem charOf?_toNat {least : Nat} {c : Char} (enough : least ≤ c.toNat) :
    charOf? least c.toNat = some c := by
  have valid : c.toNat.isValidChar := c.valid
  rw [charOf?, if_pos enough, dif_pos valid]
  rfl

theorem toNat_le (c : Char) : c.toNat ≤ 0x10FFFF := by
  have valid : c.toNat.isValidChar := c.valid
  simp only [Nat.isValidChar] at valid
  omega

theorem toNat_ofNat_of_lt {n : Nat} (byte : n < 256) : (UInt8.ofNat n).toNat = n := by
  simp
  omega

@[simp] theorem isTail_ofNat (n : Nat) : isTail (UInt8.ofNat (n % 64 + 0x80)) = true := by
  simp [isTail, UInt8.le_iff_toNat_le]
  omega

@[simp] theorem tailBits_ofNat (n : Nat) : tailBits (UInt8.ofNat (n % 64 + 0x80)) = n % 64 := by
  simp [tailBits]
  omega

theorem width?_one {n : Nat} (small : n ≤ 0x7F) : width? (UInt8.ofNat n) = some 1 := by
  simp [width?, UInt8.le_iff_toNat_le]
  omega

theorem width?_two {n : Nat} (least : 2 ≤ n) (small : n < 32) :
    width? (UInt8.ofNat (n + 0xC0)) = some 2 := by
  have value := toNat_ofNat_of_lt (n := n + 0xC0) (by omega)
  simp only [width?, UInt8.le_iff_toNat_le, value]
  rw [if_neg (by simp), if_pos (by simp; omega)]

theorem width?_three {n : Nat} (small : n < 16) : width? (UInt8.ofNat (n + 0xE0)) = some 3 := by
  have value := toNat_ofNat_of_lt (n := n + 0xE0) (by omega)
  simp only [width?, UInt8.le_iff_toNat_le, value]
  rw [if_neg (by simp), if_neg (by simp), if_pos (by simp; omega)]

theorem width?_four {n : Nat} (small : n ≤ 4) : width? (UInt8.ofNat (n + 0xF0)) = some 4 := by
  have value := toNat_ofNat_of_lt (n := n + 0xF0) (by omega)
  simp only [width?, UInt8.le_iff_toNat_le, value]
  rw [if_neg (by simp), if_neg (by simp), if_neg (by simp), if_pos (by simp; omega)]

theorem decode?_utf8EncodeChar (c : Char) :
    ∃ lead tail, String.utf8EncodeChar c = lead :: tail ∧ width? lead = some (tail.length + 1) ∧
      decode? (lead :: tail) = some c := by
  have highest := toNat_le c
  have value : c.val.toNat = c.toNat := rfl
  simp only [String.utf8EncodeChar, value]
  -- One case for each number of bytes. The bits that the encoding takes apart add up again.
  split
  · rename_i one
    have width := width?_one one
    refine ⟨_, _, rfl, width, ?_⟩
    rw [decode?, if_pos width, toNat_ofNat_of_lt (by omega), charOf?_toNat (by omega)]
  split
  · rename_i two
    have width : width? (UInt8.ofNat (c.toNat / 64 % 32 + 0xC0)) = some 2 :=
      width?_two (by omega) (by omega)
    have sum : (c.toNat / 64 % 32 + 0xC0) % 32 * 64 + c.toNat % 64 = c.toNat := by omega
    refine ⟨_, _, rfl, width, ?_⟩
    rw [decode?, if_pos (by simp only [width, isTail_ofNat]; rfl), toNat_ofNat_of_lt (by omega),
      tailBits_ofNat, sum, charOf?_toNat (by omega)]
  split
  · rename_i three
    have width : width? (UInt8.ofNat (c.toNat / 4096 % 16 + 0xE0)) = some 3 := width?_three (by omega)
    have sum : (c.toNat / 4096 % 16 + 0xE0) % 16 * 4096 + c.toNat / 64 % 64 * 64 + c.toNat % 64 =
        c.toNat := by omega
    refine ⟨_, _, rfl, width, ?_⟩
    rw [decode?, if_pos (by simp only [width, isTail_ofNat]; rfl), toNat_ofNat_of_lt (by omega),
      tailBits_ofNat, tailBits_ofNat, sum, charOf?_toNat (by omega)]
  · have width : width? (UInt8.ofNat (c.toNat / 262144 % 8 + 0xF0)) = some 4 := width?_four (by omega)
    have sum : (c.toNat / 262144 % 8 + 0xF0) % 8 * 262144 + c.toNat / 4096 % 64 * 4096 +
        c.toNat / 64 % 64 * 64 + c.toNat % 64 = c.toNat := by omega
    refine ⟨_, _, rfl, width, ?_⟩
    rw [decode?, if_pos (by simp only [width, isTail_ofNat]; rfl), toNat_ofNat_of_lt (by omega),
      tailBits_ofNat, tailBits_ofNat, tailBits_ofNat, sum, charOf?_toNat (by omega)]

end Utf8

namespace Feed

theorem take_ofBytes (chunk rest : List UInt8) :
    Feed.take chunk.length (ofBytes (chunk ++ rest)) = (.ok chunk, ofBytes rest) := by
  induction chunk with
  | nil => rfl
  | cons b chunk ih =>
      simp only [ofBytes, List.cons_append, List.length_cons, take, next] at ih ⊢
      rw [ih]

theorem pull_utf8EncodeChar (c : Char) (rest : List UInt8) :
    Window.pull (ofBytes (String.utf8EncodeChar c ++ rest)) = (.ok (some c), ofBytes rest) := by
  obtain ⟨lead, tail, encoded, announced, decoded⟩ := Utf8.decode?_utf8EncodeChar c
  have front : (ofBytes (lead :: (tail ++ rest))).next = (.ok (some lead), ofBytes (tail ++ rest)) := rfl
  simp [encoded, Window.pull, front, Window.decodeAfter, announced, take_ofBytes, decoded]

theorem runes_ofBytes (text : List Char) :
    (ofBytes (text.flatMap String.utf8EncodeChar)).runes = text := by
  induction text with
  | nil => exact runes_none rfl
  | cons c text ih =>
      rw [List.flatMap_cons, runes_some (pull_utf8EncodeChar c _), ih]

@[simp] theorem runes_ofString (s : String) : (ofString s).runes = s.toList := by
  rw [ofString, toList_toUTF8, runes_ofBytes]

end Feed

namespace Window

def Holds (w : Window) (text : List Char) : Prop :=
  -- The read that finds the end uses up the feed for good, so behind it no bytes are to be spoken of.
  ∃ rest, text = w.ahead ++ rest ∧
    (w.feed = Feed.ofBytes (rest.flatMap String.utf8EncodeChar) ∨ rest = [] ∧ w.feed = [])

theorem holds_ofString (s : String) : (ofString s).Holds s.toList :=
  ⟨s.toList, rfl, .inl (congrArg Feed.ofBytes (toList_toUTF8 s))⟩

theorem read_of_holds_cons {w : Window} {c : Char} {text : List Char} (holds : w.Holds (c :: text)) :
    ∃ next, w.read = (.ok (some c), next) ∧ next.Holds text := by
  obtain ⟨rest, whole, feed⟩ := holds
  cases held : w.ahead with
  | cons d ahead =>
      rw [held] at whole
      cases whole
      refine ⟨⟨w.feed, c :: w.behind, ahead, 0⟩, ?_, rest, rfl, feed⟩
      simp only [read, held]
  | nil =>
      rw [held, List.nil_append] at whole
      subst whole
      obtain feed | ⟨none, -⟩ := feed
      · have pulled := Feed.pull_utf8EncodeChar c (text.flatMap String.utf8EncodeChar)
        rw [← List.flatMap_cons, ← feed] at pulled
        refine ⟨⟨Feed.ofBytes (text.flatMap String.utf8EncodeChar), c :: w.behind, [], 0⟩, ?_,
          text, rfl, .inl rfl⟩
        simp only [read, held, pulled]
      · cases none

theorem read_of_holds_nil {w : Window} (holds : w.Holds []) :
    ∃ next, w.read = (.ok none, next) ∧ next.Holds [] := by
  obtain ⟨rest, whole, feed⟩ := holds
  obtain ⟨held, rfl⟩ := List.append_eq_nil_iff.1 whole.symm
  have pulled : pull w.feed = (.ok none, []) := by
    obtain feed | ⟨-, feed⟩ := feed <;> rw [feed] <;> rfl
  refine ⟨⟨[], w.behind, [], 0⟩, ?_, [], rfl, .inr ⟨rfl, rfl⟩⟩
  simp only [read, held, pulled]

end Window

end PredicateLang
