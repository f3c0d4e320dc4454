import PredicateLang.Proofs.Source.Decoding

set_option autoImplicit false

namespace PredicateLang

def Together {α σ τ : Type} (alike : σ → τ → Prop) (one : α × σ) (other : α × τ) : Prop :=
  one.1 = other.1 ∧ alike one.2 other.2

theorem Together.found {α σ τ : Type} {alike : σ → τ → Prop} {one : α × σ} {other : α × τ}
    (together : Together alike one other) :
    ∃ result s t, one = (result, s) ∧ other = (result, t) ∧ alike s t :=
  ⟨one.1, one.2, other.2, rfl, Prod.ext together.1.symm rfl, together.2⟩

namespace Feed

/-- No read of either stream fails, and both still deliver the same bytes. -/
structure Alike (feed other : Feed) : Prop where
  unfailing : feed.Unfailing
  unfailing_other : other.Unfailing
  bytes : feed.bytes = other.bytes

variable {feed other : Feed}

theorem Alike.next (alike : feed.Alike other) : Together Alike feed.next other.next := by
  obtain ⟨fine, fine', same⟩ := alike
  obtain ⟨rest, found, behind, unfailing⟩ := next_unfailing fine
  obtain ⟨rest', found', behind', unfailing'⟩ := next_unfailing fine'
  rw [found, found', same]
  exact ⟨rfl, unfailing, unfailing', by rw [behind, behind', same]⟩

theorem Alike.take (alike : feed.Alike other) (count : Nat) :
    Together Alike (feed.take count) (other.take count) := by
  obtain ⟨fine, fine', same⟩ := alike
  obtain ⟨rest, taken, behind, unfailing⟩ := take_unfailing count fine
  obtain ⟨rest', taken', behind', unfailing'⟩ := take_unfailing count fine'
  rw [taken, taken', same]
  exact ⟨rfl, unfailing, unfailing', by rw [behind, behind', same]⟩

end Feed

namespace Window

variable {feed other : Feed}

theorem decodeAfter_alike (alike : feed.Alike other) (lead : UInt8) :
    Together Feed.Alike (decodeAfter lead feed) (decodeAfter lead other) := by
  unfold decodeAfter
  cases Utf8.width? lead with
  | none => exact ⟨rfl, alike⟩
  | some width =>
      -- All the bytes that the first one announces are read before any of them is looked at.
      obtain ⟨result, rest, rest', taken, taken', behind⟩ := (alike.take (width - 1)).found
      simp only [taken, taken']
      cases result with
      | error reason => exact ⟨rfl, behind⟩
      | ok tail =>
          dsimp only
          cases Utf8.decode? (lead :: tail) <;> exact ⟨rfl, behind⟩

theorem pull_alike (alike : feed.Alike other) : Together Feed.Alike (pull feed) (pull other) := by
  unfold pull
  obtain ⟨result, rest, rest', first, first', behind⟩ := alike.next.found
  rw [first, first']
  rcases result with reason | _ | lead
  · exact ⟨rfl, behind⟩
  · exact ⟨rfl, behind⟩
  · obtain ⟨decoded, last, last', read, read', behind⟩ := (decodeAfter_alike behind lead).found
    simp only [read, read']
    cases decoded <;> exact ⟨rfl, behind⟩

/-- The windows show the same, and so will the streams behind them. -/
structure Alike (w v : Window) : Prop where
  feed : w.feed.Alike v.feed
  behind : w.behind = v.behind
  ahead : w.ahead = v.ahead
  pending : w.pending = v.pending

variable {w v : Window}

theorem alike_ofFeed (alike : feed.Alike other) : (ofFeed feed).Alike (ofFeed other) :=
  ⟨alike, rfl, rfl, rfl⟩

theorem Alike.read (alike : w.Alike v) : Together Alike w.read v.read := by
  obtain ⟨feeds, behind, ahead, -⟩ := alike
  unfold Window.read
  rw [← behind, ← ahead]
  cases w.ahead with
  | cons c ahead => exact ⟨rfl, feeds, rfl, rfl, rfl⟩
  | nil =>
      obtain ⟨result, rest, rest', pulled, pulled', left⟩ := (pull_alike feeds).found
      simp only [pulled, pulled']
      rcases result with fault | _ | c <;> exact ⟨rfl, left, rfl, rfl, rfl⟩

theorem Alike.readRune (alike : w.Alike v) : Together Alike w.readRune v.readRune := by
  obtain ⟨same, behind⟩ := alike.read
  rw [readRune_eq, readRune_eq]
  exact ⟨congrArg (Except.map (Option.map measured)) same, behind⟩

theorem Alike.unread? (alike : w.Alike v) :
    Option.Rel Alike w.unread? v.unread? := by
  obtain ⟨feeds, behind, ahead, pending⟩ := alike
  unfold Window.unread?
  rw [← behind, ← ahead, ← pending]
  cases w.behind with
  | nil => exact .none
  | cons c behind => exact .some ⟨feeds, rfl, rfl, rfl⟩

theorem Alike.forget (alike : w.Alike v) : w.forget.Alike v.forget :=
  ⟨alike.feed, rfl, alike.ahead, alike.pending⟩

theorem Alike.reads (alike : w.Alike v) (count : Nat) : w.reads count = v.reads count := by
  induction count generalizing w v with
  | zero => rfl
  | succ count ih =>
      obtain ⟨same, behind⟩ := alike.readRune
      rw [Window.reads, Window.reads, same, ih behind]

end Window

end PredicateLang
