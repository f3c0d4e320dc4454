import PredicateLang.Proofs.Token.Texts

set_option autoImplicit false

namespace PredicateLang

namespace Scanner

def after (s : Scanner) : Nat → Scanner
  -- A call that ends in a fault is followed by the next one all the same.
  | 0 => s
  | calls + 1 => (s.after calls).next.2

def joined (words : Nat → List Char) (calls : Nat) : List Char :=
  (List.range calls).flatMap words

theorem joined_succ (words : Nat → List Char) (calls : Nat) :
    joined words (calls + 1) = joined words calls ++ words calls := by
  simp [joined, List.range_succ]

def Drained (s : Scanner) : Prop := s.finished = true → s.upcoming = []

theorem coupled_fresh {s : Scanner} (drained : s.Drained) :
    Coupled s.position s.upcoming s.fresh := by
  refine ⟨rfl, trivial, rfl, rfl, fun finished => ⟨rfl, ?_⟩⟩
  exact drained finished

/-- What a call does to the scanner: the word that it takes leads from one position to the next. -/
structure Covers (s next : Scanner) : Prop where
  conserved : next.word ++ next.upcoming = s.upcoming
  placed : next.position = s.position.advanceOver next.word
  drained : next.Drained

theorem covers_of_coupled {s next : Scanner} (coupled : Coupled s.position s.upcoming next) :
    Covers s next :=
  ⟨coupled.conserved, coupled.placed, fun finished => (coupled.drained finished).2⟩

theorem next_covers {s : Scanner} (drained : s.Drained) :
    Covers s s.next.2 ∧ Supplied (token s.fresh).1 := by
  rw [next_eq]
  -- Forgetting the last token starts a new account, with nothing in it.
  have coupled := coupled_fresh drained
  unfold token
  cases found : take s.fresh with
  | mk result next =>
      obtain ⟨kept, sound⟩ := coupled_take coupled found
      rcases result with fault | _ | c
      · exact ⟨covers_of_coupled kept, sound.error⟩
      · have empty := upcoming_take_none coupled found
        exact ⟨⟨kept.conserved, kept.placed, fun _ => empty⟩, Supplied.ok _⟩
      · obtain ⟨kept, sound⟩ := faithful_tokenAfter s.fresh.position c _ _ next kept
        exact ⟨covers_of_coupled kept, sound⟩

theorem next_token {s : Scanner} {t : Token} (drained : s.Drained) (h : s.next.1 = .ok t) :
    t.position = s.position ∧ t.Spells s.next.2.word ∧ t.kind.Admits s.next.2.word ∧
      (t.kind = .eof → s.next.2.upcoming = []) := by
  have coupled := coupled_fresh drained
  replace h := next_ok h
  rw [next_eq]
  unfold token at h ⊢
  cases found : take s.fresh with
  | mk result next =>
      rw [found] at h
      have kept := (coupled_take coupled found).1
      rcases result with fault | _ | c
      · cases h
      · cases h
        have none : next.taken = [] := taken_take_none found
        have empty := upcoming_take_none coupled found
        refine ⟨rfl, ⟨?_, rfl⟩, trivial, fun _ => empty⟩
        simp [word, none]
      · have one : next.word = [c] := word_take found
        cases scanned : tokenAfter s.fresh.position c next with
        | mk outcome last =>
            simp only [scanned] at h ⊢
            subst h
            obtain ⟨place, notEnd, text, admits⟩ := tokenAfter_ok kept one scanned
            exact ⟨place, text, admits, fun ends => absurd ends notEnd⟩

theorem drained_after {s : Scanner} (drained : s.Drained) (calls : Nat) :
    (s.after calls).Drained := by
  induction calls with
  | zero => exact drained
  | succ calls ih => exact (next_covers ih).1.drained

def words (s : Scanner) (call : Nat) : List Char :=
  -- A scanner keeps the word of a token until the next call.
  (s.after (call + 1)).word

theorem after_covers {s : Scanner} (drained : s.Drained) (calls : Nat) :
    joined s.words calls ++ (s.after calls).upcoming = s.upcoming ∧
      (s.after calls).position = s.position.advanceOver (joined s.words calls) := by
  induction calls with
  | zero => exact ⟨rfl, rfl⟩
  | succ calls ih =>
      obtain ⟨conserved, placed⟩ := ih
      have covers := (next_covers (drained_after drained calls)).1
      have rest : s.words calls ++ (s.after (calls + 1)).upcoming = (s.after calls).upcoming :=
        covers.conserved
      have place : (s.after (calls + 1)).position =
          (s.after calls).position.advanceOver (s.words calls) := covers.placed
      constructor
      · rw [joined_succ, List.append_assoc, rest, conserved]
      · rw [place, placed, joined_succ, Position.advanceOver_append]

theorem drained_ofFeed (keywordBoundary : Bool) (feed : Feed) :
    (ofFeed keywordBoundary feed).Drained := by
  intro finished
  cases finished

theorem upcoming_next_lt {s : Scanner} {t : Token} (drained : s.Drained) (h : s.next.1 = .ok t)
    (more : t.kind ≠ .eof) : s.next.2.upcoming.length < s.upcoming.length := by
  have covers := (next_covers drained).1
  obtain ⟨-, text, -, -⟩ := next_token drained h
  -- No token but the end of input spells the empty word.
  have some : s.next.2.word ≠ [] := by
    intro none
    unfold Token.Spells at text
    split at text <;> simp_all
  have one := List.length_pos_iff.2 some
  have total := congrArg List.length covers.conserved
  rw [List.length_append] at total
  omega

theorem length_allTokens_le {s : Scanner} {tokens : List Token} (drained : s.Drained)
    (h : allTokens s = .ok tokens) : tokens.length ≤ s.upcoming.length + 1 := by
  fun_induction allTokens s generalizing tokens with
  | case1 s fault next found => cases h
  | case2 s t next found ends =>
      cases h
      simp
  | case3 s t next found more ih =>
      have scanned : s.next = (.ok t, next) := found
      have fewer := upcoming_next_lt drained (by rw [scanned]) more
      have still := (next_covers drained).1.drained
      rw [scanned] at fewer still
      cases others : allTokens next with
      | error fault =>
          rw [others] at h
          cases h
      | ok rest =>
          rw [others] at h
          cases h
          have bound := ih still others
          simp only [List.length_cons] at fewer ⊢
          omega

theorem length_after_le {s : Scanner} (drained : s.Drained) {calls : Nat}
    (running : ∀ call < calls, ∃ t, (s.after call).next.1 = .ok t ∧ t.kind ≠ .eof) :
    (s.after calls).upcoming.length + calls ≤ s.upcoming.length := by
  induction calls with
  | zero => exact Nat.le_refl _
  | succ calls ih =>
      have before := ih fun call early => running call (Nat.lt_succ_of_lt early)
      obtain ⟨t, found, more⟩ := running calls (Nat.lt_succ_self calls)
      have fewer : (s.after (calls + 1)).upcoming.length < (s.after calls).upcoming.length :=
        upcoming_next_lt (drained_after drained calls) found more
      omega

/-- Over any stream and any number of calls, the words that the calls take make up the beginning of what
the stream delivers, and tokens and positions say where and what these words are. Nothing that has to be
given back is ever missing, and no more tokens come than characters, before the end of input. -/
theorem calls_cover_stream (keywordBoundary : Bool) (feed : Feed) :
    (∃ words : Nat → List Char, ∀ calls : Nat,
      let s := (ofFeed keywordBoundary feed).after calls
      joined words calls ++ s.upcoming = feed.runes ∧
      s.position = Position.start.advanceOver (joined words calls) ∧
      (∀ position, (token s.fresh).1 ≠ .error (.floor position)) ∧
      ∀ t, s.next.1 = .ok t → t.position = s.position ∧ t.Spells (words calls) ∧
        (t.kind = .eof → joined words (calls + 1) = feed.runes)) ∧
    (∀ calls : Nat,
      (∀ call < calls, ∃ t, ((ofFeed keywordBoundary feed).after call).next.1 = .ok t ∧
        t.kind ≠ .eof) → calls ≤ feed.runes.length) ∧
    ∀ (source : String) (tokens : List Token),
      tokenize keywordBoundary (Feed.ofString source) = .ok tokens →
        tokens.length ≤ source.toList.length + 1 := by
  have drained := drained_ofFeed keywordBoundary feed
  refine ⟨⟨(ofFeed keywordBoundary feed).words, fun calls => ?_⟩, fun calls running => ?_, ?_⟩
  · obtain ⟨conserved, placed⟩ := after_covers drained calls
    have still := drained_after drained calls
    refine ⟨conserved, placed, (next_covers still).2, fun t found => ?_⟩
    obtain ⟨place, text, -, ends⟩ := next_token still found
    refine ⟨place, text, fun finish => ?_⟩
    obtain ⟨all, -⟩ := after_covers drained (calls + 1)
    have empty : ((ofFeed keywordBoundary feed).after (calls + 1)).upcoming = [] := ends finish
    rw [empty, List.append_nil] at all
    exact all
  · have bound := length_after_le drained running
    have whole : (ofFeed keywordBoundary feed).upcoming = feed.runes := rfl
    rw [whole] at bound
    omega
  · intro source tokens done
    have bound := length_allTokens_le (drained_ofFeed keywordBoundary _) done
    have whole : (ofFeed keywordBoundary (Feed.ofString source)).upcoming = source.toList :=
      Feed.runes_ofString source
    rwa [whole] at bound

end Scanner

end PredicateLang
