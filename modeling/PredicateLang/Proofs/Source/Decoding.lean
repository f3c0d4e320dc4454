import PredicateLang.Proofs.Source.Runes

set_option autoImplicit false

namespace PredicateLang

namespace Utf8

theorem charOf?_eq_some_iff {least n : Nat} {c : Char} :
    charOf? least n = some c ↔ least ≤ n ∧ c.toNat = n := by
  constructor
  · intro h
    obtain ⟨enough, h⟩ := Option.ite_none_right_eq_some.1 h
    obtain ⟨valid, same⟩ := Option.dite_none_right_eq_some.1 h
    cases same
    exact ⟨enough, rfl⟩
  · rintro ⟨enough, rfl⟩
    exact charOf?_toNat enough

theorem lead_of_width? {lead : UInt8} {width : Nat} (h : width? lead = some width) :
    width = 1 ∧ lead.toNat ≤ 0x7F ∨ width = 2 ∧ 0xC2 ≤ lead.toNat ∧ lead.toNat ≤ 0xDF ∨
      width = 3 ∧ 0xE0 ≤ lead.toNat ∧ lead.toNat ≤ 0xEF ∨
      width = 4 ∧ 0xF0 ≤ lead.toNat ∧ lead.toNat ≤ 0xF4 := by
  simp [width?, UInt8.le_iff_toNat_le] at h
  grind

theorem eq_ofNat {b : UInt8} {n : Nat} (same : b.toNat = n) : b = UInt8.ofNat n := by
  rw [← same, UInt8.ofNat_toNat]

theorem tail_of_isTail {b : UInt8} (h : isTail b = true) :
    b.toNat = tailBits b + 0x80 ∧ tailBits b < 64 := by
  simp only [isTail, UInt8.le_iff_toNat_le, Bool.and_eq_true, decide_eq_true_eq] at h
  obtain ⟨least, greatest⟩ : 0x80 ≤ b.toNat ∧ b.toNat ≤ 0xBF := h
  unfold tailBits
  omega

theorem utf8EncodeChar_of_decode? {bytes : List UInt8} {c : Char} (h : decode? bytes = some c) :
    bytes = String.utf8EncodeChar c := by
  have value : c.val.toNat = c.toNat := rfl
  unfold decode? at h
  -- One case for each number of bytes. What the first byte announces fixes the branch of the encoding.
  split at h
  · rename_i a
    obtain ⟨width, found⟩ := Option.ite_none_right_eq_some.1 h
    obtain ⟨-, same⟩ := charOf?_eq_some_iff.1 found
    have lead := lead_of_width? width
    simp only [String.utf8EncodeChar, value]
    rw [if_pos (by omega), eq_ofNat same.symm]
  · rename_i a b
    obtain ⟨shape, found⟩ := Option.ite_none_right_eq_some.1 h
    simp only [Bool.and_eq_true, decide_eq_true_eq] at shape
    obtain ⟨width, second⟩ := shape
    obtain ⟨least, same⟩ := charOf?_eq_some_iff.1 found
    have lead := lead_of_width? width
    have second := tail_of_isTail second
    simp only [String.utf8EncodeChar, value]
    rw [if_neg (by omega), if_pos (by omega)]
    simp only [List.cons.injEq, and_true]
    exact ⟨eq_ofNat (by omega), eq_ofNat (by omega)⟩
  · rename_i a b d
    obtain ⟨shape, found⟩ := Option.ite_none_right_eq_some.1 h
    simp only [Bool.and_eq_true, decide_eq_true_eq] at shape
    obtain ⟨⟨width, second⟩, third⟩ := shape
    obtain ⟨least, same⟩ := charOf?_eq_some_iff.1 found
    have lead := lead_of_width? width
    have second := tail_of_isTail second
    have third := tail_of_isTail third
    simp only [String.utf8EncodeChar, value]
    rw [if_neg (by omega), if_neg (by omega), if_pos (by omega)]
    simp only [List.cons.injEq, and_true]
    exact ⟨eq_ofNat (by omega), eq_ofNat (by omega), eq_ofNat (by omega)⟩
  · rename_i a b d e
    obtain ⟨shape, found⟩ := Option.ite_none_right_eq_some.1 h
    simp only [Bool.and_eq_true, decide_eq_true_eq] at shape
    obtain ⟨⟨⟨width, second⟩, third⟩, fourth⟩ := shape
    obtain ⟨least, same⟩ := charOf?_eq_some_iff.1 found
    have lead := lead_of_width? width
    have second := tail_of_isTail second
    have third := tail_of_isTail third
    have fourth := tail_of_isTail fourth
    simp only [String.utf8EncodeChar, value]
    rw [if_neg (by omega), if_neg (by omega), if_neg (by omega)]
    simp only [List.cons.injEq, and_true]
    exact ⟨eq_ofNat (by omega), eq_ofNat (by omega), eq_ofNat (by omega), eq_ofNat (by omega)⟩
  · cases h

theorem decode?_eq_some_iff {bytes : List UInt8} {c : Char} :
    decode? bytes = some c ↔ bytes = String.utf8EncodeChar c := by
  refine ⟨utf8EncodeChar_of_decode?, ?_⟩
  rintro rfl
  obtain ⟨lead, tail, encoded, -, decoded⟩ := decode?_utf8EncodeChar c
  rw [encoded, decoded]

theorem width?_of_encoded {lead : UInt8} {tail : List UInt8} {c : Char}
    (encoded : String.utf8EncodeChar c = lead :: tail) : width? lead = some (tail.length + 1) := by
  obtain ⟨lead', tail', same, width, -⟩ := decode?_utf8EncodeChar c
  obtain ⟨rfl, rfl⟩ := List.cons.inj (encoded.symm.trans same)
  exact width

def Begun (bytes : List UInt8) : Prop := ∃ c, String.utf8EncodeChar c <+: bytes

theorem begun_iff {lead : UInt8} {tail : List UInt8} {c : Char} :
    String.utf8EncodeChar c <+: lead :: tail ↔
      ∃ width, width? lead = some width ∧ decode? (lead :: tail.take (width - 1)) = some c := by
  constructor
  · rintro ⟨rest, whole⟩
    obtain ⟨lead', tail', encoded, width, decoded⟩ := decode?_utf8EncodeChar c
    rw [encoded] at whole
    obtain ⟨rfl, rfl⟩ := List.cons.inj whole
    exact ⟨_, width, by simpa using decoded⟩
  · rintro ⟨width, -, decoded⟩
    rw [← decode?_eq_some_iff.1 decoded]
    exact List.cons_prefix_cons.2 ⟨rfl, List.take_prefix _ _⟩

theorem begun_unique {bytes : List UInt8} {c d : Char} (one : String.utf8EncodeChar c <+: bytes)
    (other : String.utf8EncodeChar d <+: bytes) : c = d := by
  cases bytes with
  | nil =>
      have nothing := List.prefix_nil.1 one
      simp at nothing
  | cons lead tail =>
      obtain ⟨width, announced, decoded⟩ := begun_iff.1 one
      obtain ⟨width', announced', decoded'⟩ := begun_iff.1 other
      obtain rfl := Option.some.inj (announced.symm.trans announced')
      exact Option.some.inj (decoded.symm.trans decoded')

theorem exists_longest (bytes : List UInt8) :
    ∃ (text : List Char) (rest : List UInt8),
      bytes = text.flatMap String.utf8EncodeChar ++ rest ∧ ¬ Begun rest := by
  by_cases begun : Begun bytes
  · obtain ⟨c, behind, rfl⟩ := begun
    have shorter : behind.length < (String.utf8EncodeChar c ++ behind).length := by
      simp [Char.utf8Size_pos]
    obtain ⟨text, rest, rfl, stuck⟩ := exists_longest behind
    exact ⟨c :: text, rest, by simp, stuck⟩
  · exact ⟨[], bytes, rfl, begun⟩
termination_by bytes.length

theorem prefix_of_longest {text other : List Char} {rest : List UInt8} (stuck : ¬ Begun rest)
    (front : other.flatMap String.utf8EncodeChar <+:
      text.flatMap String.utf8EncodeChar ++ rest) : other <+: text := by
  induction other generalizing text with
  | nil => exact List.nil_prefix
  | cons d other ih =>
      rw [List.flatMap_cons] at front
      have first := (List.prefix_append _ _).trans front
      cases text with
      | nil => exact absurd ⟨d, first⟩ stuck
      | cons c text =>
          rw [List.flatMap_cons, List.append_assoc] at front first
          obtain rfl := begun_unique first (List.prefix_append _ _)
          rw [List.prefix_append_right_inj] at front
          exact List.cons_prefix_cons.2 ⟨rfl, ih front⟩

/-- Bytes that carry a number, in a sequence for numbers from a least one on. -/
inductive Form (n : Nat) : Nat → List UInt8 → Prop
  | two (fits : n < 0x800) :
      Form n 0x80 [.ofNat (n / 64 + 0xC0), .ofNat (n % 64 + 0x80)]
  | three (fits : n < 0x10000) :
      Form n 0x800 [.ofNat (n / 4096 + 0xE0), .ofNat (n / 64 % 64 + 0x80), .ofNat (n % 64 + 0x80)]
  | four (fits : n < 0x200000) :
      Form n 0x10000 [.ofNat (n / 262144 + 0xF0), .ofNat (n / 4096 % 64 + 0x80),
        .ofNat (n / 64 % 64 + 0x80), .ofNat (n % 64 + 0x80)]

inductive Malformed : List UInt8 → Prop
  | stray {b : UInt8} {rest : List UInt8} (tail : 0x80 ≤ b.toNat ∧ b.toNat ≤ 0xBF) :
      Malformed (b :: rest)
  | illegal {b : UInt8} {rest : List UInt8} (lead : b = 0xC0 ∨ b = 0xC1 ∨ 0xF5 ≤ b.toNat) :
      Malformed (b :: rest)
  | overlong {n least : Nat} {bytes rest : List UInt8} (form : Form n least bytes)
      (small : n < least) : Malformed (bytes ++ rest)
  | surrogate {n least : Nat} {bytes rest : List UInt8} (form : Form n least bytes)
      (inside : 0xD800 ≤ n ∧ n ≤ 0xDFFF) : Malformed (bytes ++ rest)
  | beyond {n least : Nat} {bytes rest : List UInt8} (form : Form n least bytes)
      (above : 0x10FFFF < n) : Malformed (bytes ++ rest)
  | truncated {c : Char} {size : Nat} (some : 0 < size) (cut : size < c.utf8Size) :
      Malformed ((String.utf8EncodeChar c).take size)

theorem Form.ne_nil {n least : Nat} {bytes : List UInt8} (form : Form n least bytes) :
    bytes ≠ [] := by
  cases form <;> simp

theorem Form.begun {n least : Nat} {bytes rest : List UInt8} {c : Char} (form : Form n least bytes)
    (begun : String.utf8EncodeChar c <+: bytes ++ rest) : least ≤ n ∧ c.toNat = n := by
  cases form with
  | two fits =>
      obtain ⟨width, announced, decoded⟩ := begun_iff.1 begun
      have value := toNat_ofNat_of_lt (n := n / 64 + 0xC0) (by omega)
      have lead := lead_of_width? announced
      obtain rfl : width = 2 := by omega
      have sum : (n / 64 + 0xC0) % 32 * 64 + n % 64 = n := by omega
      replace decoded : decode? [.ofNat (n / 64 + 0xC0), .ofNat (n % 64 + 0x80)] = some c := decoded
      obtain ⟨-, found⟩ := Option.ite_none_right_eq_some.1 decoded
      rw [value, tailBits_ofNat, sum] at found
      exact charOf?_eq_some_iff.1 found
  | three fits =>
      obtain ⟨width, announced, decoded⟩ := begun_iff.1 begun
      have value := toNat_ofNat_of_lt (n := n / 4096 + 0xE0) (by omega)
      have lead := lead_of_width? announced
      obtain rfl : width = 3 := by omega
      have sum : (n / 4096 + 0xE0) % 16 * 4096 + n / 64 % 64 * 64 + n % 64 = n := by omega
      replace decoded : decode? [.ofNat (n / 4096 + 0xE0), .ofNat (n / 64 % 64 + 0x80),
        .ofNat (n % 64 + 0x80)] = some c := decoded
      obtain ⟨-, found⟩ := Option.ite_none_right_eq_some.1 decoded
      rw [value, tailBits_ofNat, tailBits_ofNat, sum] at found
      exact charOf?_eq_some_iff.1 found
  | four fits =>
      obtain ⟨width, announced, decoded⟩ := begun_iff.1 begun
      have value := toNat_ofNat_of_lt (n := n / 262144 + 0xF0) (by omega)
      have lead := lead_of_width? announced
      obtain rfl : width = 4 := by omega
      have sum : (n / 262144 + 0xF0) % 8 * 262144 + n / 4096 % 64 * 4096 + n / 64 % 64 * 64 +
          n % 64 = n := by omega
      replace decoded : decode? [.ofNat (n / 262144 + 0xF0), .ofNat (n / 4096 % 64 + 0x80),
        .ofNat (n / 64 % 64 + 0x80), .ofNat (n % 64 + 0x80)] = some c := decoded
      obtain ⟨-, found⟩ := Option.ite_none_right_eq_some.1 decoded
      rw [value, tailBits_ofNat, tailBits_ofNat, tailBits_ofNat, sum] at found
      exact charOf?_eq_some_iff.1 found

theorem Malformed.ne_nil {bytes : List UInt8} (malformed : Malformed bytes) : bytes ≠ [] := by
  cases malformed with
  | stray tail => exact List.cons_ne_nil _ _
  | illegal lead => exact List.cons_ne_nil _ _
  | overlong form small => simp [form.ne_nil]
  | surrogate form inside => simp [form.ne_nil]
  | beyond form above => simp [form.ne_nil]
  | @truncated c size some cut =>
      intro none
      have length := congrArg List.length none
      simp at length
      omega

theorem Malformed.stuck {bytes : List UInt8} (malformed : Malformed bytes) : ¬ Begun bytes := by
  rintro ⟨d, begun⟩
  cases malformed with
  | stray tail =>
      obtain ⟨width, announced, -⟩ := begun_iff.1 begun
      have lead := lead_of_width? announced
      omega
  | illegal lead =>
      obtain ⟨width, announced, -⟩ := begun_iff.1 begun
      have legal := lead_of_width? announced
      obtain rfl | rfl | above := lead
      · simp at legal
      · simp at legal
      · omega
  | overlong form small => exact absurd (form.begun begun).1 (by omega)
  | surrogate form inside =>
      have number := (form.begun begun).2
      have valid : d.toNat.isValidChar := d.valid
      simp only [Nat.isValidChar] at valid
      omega
  | beyond form above =>
      have number := (form.begun begun).2
      have highest := toNat_le d
      omega
  | @truncated c size some cut =>
      obtain rfl := begun_unique (begun.trans (List.take_prefix _ _)) List.prefix_rfl
      have length := begun.length_le
      simp at length
      omega

end Utf8

namespace Feed

def bytes : Feed → List UInt8
  | [] => []
  | .bytes chunk :: rest => chunk ++ bytes rest
  | .interrupted :: rest => bytes rest
  | .failed _ :: rest => bytes rest

def Unfailing (feed : Feed) : Prop := ∀ reason, .failed reason ∉ feed

theorem next_unfailing {feed : Feed} (unfailing : feed.Unfailing) :
    ∃ rest, feed.next = (.ok feed.bytes.head?, rest) ∧ rest.bytes = feed.bytes.tail ∧
      rest.Unfailing := by
  fun_induction next feed
  case case5 reason rest => exact absurd List.mem_cons_self (unfailing reason)
  all_goals simp_all [Feed.bytes, Unfailing]

theorem take_unfailing (count : Nat) {feed : Feed} (unfailing : feed.Unfailing) :
    ∃ rest, feed.take count = (.ok (feed.bytes.take count), rest) ∧
      rest.bytes = feed.bytes.drop count ∧ rest.Unfailing := by
  induction count generalizing feed with
  | zero => exact ⟨feed, rfl, rfl, unfailing⟩
  | succ count ih =>
      obtain ⟨rest, found, behind, fine⟩ := next_unfailing unfailing
      cases whole : feed.bytes with
      | nil =>
          rw [whole] at found behind
          exact ⟨rest, by simp [take, found], by simpa using behind, fine⟩
      | cons b others =>
          rw [whole] at found behind
          obtain ⟨last, taken, left, fine⟩ := ih fine
          rw [behind] at taken left
          exact ⟨last, by simp [take, found, taken], by simpa using left, fine⟩

end Feed

namespace Window

theorem decodeAfter_unfailing {feed : Feed} (unfailing : feed.Unfailing) (lead : UInt8) {width : Nat}
    (announced : Utf8.width? lead = some width) :
    ∃ rest, decodeAfter lead feed = (match Utf8.decode? (lead :: feed.bytes.take (width - 1)) with
        | some c => .ok c
        | none => .error .invalidUtf8, rest) ∧
      rest.bytes = feed.bytes.drop (width - 1) ∧ rest.Unfailing := by
  obtain ⟨rest, taken, behind, fine⟩ := Feed.take_unfailing (width - 1) unfailing
  refine ⟨rest, ?_, behind, fine⟩
  simp only [decodeAfter, announced, taken]
  split <;> simp_all

theorem pullRune_end {feed : Feed} (unfailing : feed.Unfailing) (none : feed.bytes = []) :
    ∃ rest, pullRune feed = (.ok .none, rest) := by
  obtain ⟨rest, found, -⟩ := Feed.next_unfailing unfailing
  rw [none] at found
  exact ⟨rest, by simp [pullRune, found]⟩

theorem pullRune_begun {feed : Feed} (unfailing : feed.Unfailing) {c : Char} {behind : List UInt8}
    (front : feed.bytes = String.utf8EncodeChar c ++ behind) :
    ∃ rest, pullRune feed = (.ok (some (c, c.utf8Size)), rest) ∧ rest.bytes = behind ∧
      rest.Unfailing := by
  obtain ⟨rest, found, others, fine⟩ := Feed.next_unfailing unfailing
  obtain ⟨lead, tail, encoded, width, decoded⟩ := Utf8.decode?_utf8EncodeChar c
  have size : c.utf8Size = tail.length + 1 := by
    rw [← String.length_utf8EncodeChar, encoded, List.length_cons]
  rw [front, encoded] at found others
  replace others : rest.bytes = tail ++ behind := others
  obtain ⟨last, read, left, fine⟩ := decodeAfter_unfailing fine lead width
  rw [others] at read left
  refine ⟨last, ?_, by simpa using left, fine⟩
  simp only [Nat.add_sub_cancel, List.take_left, decoded] at read
  simp [pullRune, found, read, width, size]

theorem pullRune_stuck {feed : Feed} (unfailing : feed.Unfailing) (some : feed.bytes ≠ [])
    (stuck : ¬ Utf8.Begun feed.bytes) :
    ∃ rest, pullRune feed = (.error .invalidUtf8, rest) := by
  obtain ⟨rest, found, others, fine⟩ := Feed.next_unfailing unfailing
  obtain ⟨lead, tail, front⟩ := List.exists_cons_of_ne_nil some
  rw [front] at found others stuck
  replace others : rest.bytes = tail := others
  cases width : Utf8.width? lead with
  | none => exact ⟨rest, by simp [pullRune, found, decodeAfter, width]⟩
  | some width' =>
      obtain ⟨last, read, -⟩ := decodeAfter_unfailing fine lead width
      have none : Utf8.decode? (lead :: tail.take (width' - 1)) = .none := by
        refine Option.eq_none_iff_forall_ne_some.2 fun c decoded => ?_
        exact stuck ⟨c, Utf8.begun_iff.2 ⟨width', width, decoded⟩⟩
      rw [others, none] at read
      exact ⟨last, by simp [pullRune, found, read]⟩

def measured (c : Char) : Char × Nat := (c, c.utf8Size)

theorem width_of_decodeAfter {lead : UInt8} {feed rest : Feed} {c : Char}
    (h : decodeAfter lead feed = (.ok c, rest)) : Utf8.width? lead = some c.utf8Size := by
  unfold decodeAfter at h
  split at h
  · cases h
  · split at h
    · cases h
    · split at h
      · cases h
      · rename_i decoded
        cases h
        have encoded := Utf8.decode?_eq_some_iff.1 decoded
        rw [Utf8.width?_of_encoded encoded.symm, ← String.length_utf8EncodeChar, ← encoded,
          List.length_cons]

theorem pullRune_eq (feed : Feed) :
    pullRune feed = ((pull feed).1.map (Option.map measured), (pull feed).2) := by
  unfold pullRune pull
  split
  · rfl
  · rfl
  · rename_i lead rest found
    cases read : decodeAfter lead rest with
    | mk result last =>
        cases result with
        | error fault => rfl
        | ok c =>
            simp only [width_of_decodeAfter read]
            rfl

theorem readRune_eq (w : Window) :
    w.readRune = (w.read.1.map (Option.map measured), w.read.2) := by
  unfold readRune read
  cases w.ahead with
  | cons c ahead => rfl
  | nil =>
      dsimp only
      rw [pullRune_eq]
      rcases pull w.feed with ⟨fault | _ | c, feed⟩ <;> rfl

def reads (w : Window) : Nat → List (Except ReadFault (Option (Char × Nat)))
  | 0 => []
  | count + 1 => w.readRune.1 :: reads w.readRune.2 count

theorem readRune_fresh {w : Window} {feed : Feed}
    {result : Except ReadFault (Option (Char × Nat))} (none : w.ahead = [])
    (pulled : pullRune w.feed = (result, feed)) :
    w.readRune.1 = result ∧ w.readRune.2.ahead = [] ∧ w.readRune.2.feed = feed := by
  unfold readRune
  rw [none]
  dsimp only
  rw [pulled]
  rcases result with fault | _ | ⟨c, width⟩ <;> exact ⟨rfl, rfl, rfl⟩

theorem reads_text {w : Window} {text : List Char} {rest : List UInt8} (none : w.ahead = [])
    (unfailing : w.feed.Unfailing)
    (whole : w.feed.bytes = text.flatMap String.utf8EncodeChar ++ rest)
    (stuck : ¬ Utf8.Begun rest) :
    w.reads (text.length + 1) = text.map (fun c => .ok (some (measured c))) ++
      [if rest = [] then .ok .none else .error .invalidUtf8] := by
  induction text generalizing w with
  | nil =>
      replace whole : w.feed.bytes = rest := whole
      show [w.readRune.1] = [_]
      by_cases ended : rest = []
      · obtain ⟨feed, pulled⟩ := pullRune_end unfailing (whole.trans ended)
        rw [(readRune_fresh none pulled).1, if_pos ended]
      · obtain ⟨feed, pulled⟩ := pullRune_stuck unfailing (whole ▸ ended) (whole ▸ stuck)
        rw [(readRune_fresh none pulled).1, if_neg ended]
  | cons c text ih =>
      rw [List.flatMap_cons, List.append_assoc] at whole
      obtain ⟨feed, pulled, behind, fine⟩ := pullRune_begun unfailing whole
      obtain ⟨result, none, same⟩ := readRune_fresh none pulled
      have others := ih none (same ▸ fine) (same ▸ behind)
      rw [List.length_cons, reads, result, others]
      rfl

end Window

/-- What is read from bytes that never fail to come are the characters, with their widths, of the longest
text whose encoding the bytes begin with, and then the end of input if that is all of them, or a fault. So a
text is read back from its encoding, and wherever a malformed sequence stands behind a text, the fault does. -/
theorem reads_of_longest_text (feed : Feed) (unfailing : feed.Unfailing) :
    let w := Window.ofFeed feed
    let given := fun c => .ok (some (Window.measured c))
    (∃ text : List Char, text.flatMap String.utf8EncodeChar <+: feed.bytes ∧
      (∀ other : List Char, other.flatMap String.utf8EncodeChar <+: feed.bytes → other <+: text) ∧
      w.reads (text.length + 1) = text.map given ++
        [if text.flatMap String.utf8EncodeChar = feed.bytes then .ok none
          else .error .invalidUtf8]) ∧
    (∀ source : String, feed.bytes = source.toUTF8.toList →
      w.reads (source.toList.length + 1) = source.toList.map given ++ [.ok none]) ∧
    ∀ (text : List Char) (bytes : List UInt8), Utf8.Malformed bytes →
      feed.bytes = text.flatMap String.utf8EncodeChar ++ bytes →
        w.reads (text.length + 1) = text.map given ++ [.error .invalidUtf8] := by
  intro w given
  have nothing : ¬ Utf8.Begun [] := by
    rintro ⟨c, begun⟩
    simpa using List.prefix_nil.1 begun
  refine ⟨?_, fun source whole => ?_, fun text bytes malformed whole => ?_⟩
  · obtain ⟨text, rest, whole, stuck⟩ := Utf8.exists_longest feed.bytes
    refine ⟨text, ⟨rest, whole.symm⟩, fun other front => ?_, ?_⟩
    · rw [whole] at front
      exact Utf8.prefix_of_longest stuck front
    · have read := Window.reads_text (w := w) rfl unfailing whole stuck
      rw [read, whole]
      simp [given]
  · rw [toList_toUTF8, ← List.append_nil (source.toList.flatMap _)] at whole
    exact Window.reads_text rfl unfailing whole nothing
  · have read := Window.reads_text (w := w) rfl unfailing whole malformed.stuck
    rwa [if_neg malformed.ne_nil] at read

theorem cut_sequence_refused :
    let feed : Feed := [.bytes [0x61, 0xE2], .interrupted, .bytes [0x82]]
    feed.Unfailing ∧ (Window.ofFeed feed).reads 2 =
      [.ok (some ('a', 1)), .error .invalidUtf8] := by
  intro feed
  have unfailing : feed.Unfailing := by
    intro reason
    simp [feed]
  have malformed : Utf8.Malformed [0xE2, 0x82] :=
    @Utf8.Malformed.truncated '€' 2 (by decide) (by decide)
  exact ⟨unfailing, (reads_of_longest_text feed unfailing).2.2 ['a'] _ malformed rfl⟩

end PredicateLang
