import PredicateLang.Proofs.Source.Arrivals
import PredicateLang.Proofs.Syntax.Simulation
import PredicateLang.Proofs.Token.Rules

set_option autoImplicit false

namespace PredicateLang

namespace Scanner

structure Alike (s t : Scanner) : Prop where
  window : s.window.Alike t.window
  keywordBoundary : s.keywordBoundary = t.keywordBoundary
  position : s.position = t.position
  taken : s.taken = t.taken
  finished : s.finished = t.finished

def BlindAt {α : Type} (x : Scan α) (s : Scanner) : Prop :=
  ∀ t, s.Alike t → Together Alike (x s) (x t)

def Blind {α : Type} (x : Scan α) : Prop := ∀ s, BlindAt x s

section

variable {α β : Type}

theorem Blind.result {a : Scanner → α} (same : ∀ s t : Scanner, s.Alike t → a s = a t) :
    Blind (fun s => (.ok (a s), s) : Scan α) := by
  intro s t alike
  exact ⟨congrArg Except.ok (same s t alike), alike⟩

theorem Blind.pure (a : α) : Blind (pure a : Scan α) := Blind.result fun _ _ _ => rfl

theorem Blind.throw (fault : ScanFault) : Blind (throw fault : Scan α) := fun _ _ alike => ⟨rfl, alike⟩

theorem BlindAt.bind {x : Scan α} {f : α → Scan β} {s : Scanner} (first : BlindAt x s)
    (second : ∀ a next, x s = (.ok a, next) → BlindAt (f a) next) : BlindAt (x >>= f) s := by
  intro t alike
  obtain ⟨result, next, next', found, found', behind⟩ := (first t alike).found
  rw [bind_apply, bind_apply, found, found']
  cases result with
  | error fault => exact ⟨rfl, behind⟩
  | ok a => exact second a next found next' behind

theorem Blind.bind {x : Scan α} {f : α → Scan β} (first : Blind x) (second : ∀ a, Blind (f a)) :
    Blind (x >>= f) :=
  fun s => (first s).bind fun a next _ => second a next

theorem blind_take : Blind take := by
  rintro ⟨w, boundary, place, taken, finished⟩ ⟨v, _, _, _, _⟩ ⟨windows, rfl, rfl, rfl, rfl⟩
  cases finished with
  | true => exact ⟨rfl, windows, rfl, rfl, rfl, rfl⟩
  | false =>
      obtain ⟨result, window, window', read, read', behind⟩ := windows.read.found
      simp only at read read'
      simp only [take, read, read']
      rcases result with fault | _ | c <;> exact ⟨rfl, behind, rfl, rfl, rfl, rfl⟩

theorem blind_giveBack : Blind giveBack := by
  rintro ⟨w, boundary, place, taken, finished⟩ ⟨v, _, _, _, _⟩ ⟨windows, rfl, rfl, rfl, rfl⟩
  cases taken with
  | nil => exact ⟨rfl, windows, rfl, rfl, rfl, rfl⟩
  | cons last rest =>
      have back := windows.unread?
      simp only [giveBack]
      generalize w.unread? = unread at back ⊢
      generalize v.unread? = unread' at back ⊢
      cases back with
      | none => exact ⟨rfl, windows, rfl, rfl, rfl, rfl⟩
      | some behind => exact ⟨rfl, behind, rfl, rfl, rfl, rfl⟩

theorem blind_takenCount : Blind takenCount :=
  Blind.result fun _ _ alike => congrArg List.length alike.taken

theorem blind_takenText : Blind takenText :=
  Blind.result fun s t alike => by rw [alike.taken]

theorem blind_restore (mark : Nat) : Blind (restore mark) := by
  have many (count : Nat) : Blind (giveBackMany count) := by
    induction count with
    | zero => exact Blind.pure ()
    | succ count ih => exact blind_giveBack.bind fun _ => ih
  exact blind_takenCount.bind fun held => many _

theorem blind_takeTextFrom (mark : Nat) (expected : List Char) :
    Blind (takeTextFrom mark expected) := by
  induction expected with
  | nil => exact Blind.pure true
  | cons c rest ih =>
      refine blind_take.bind fun found => ?_
      split
      · exact ih
      · exact (blind_restore mark).bind fun _ => Blind.pure false

theorem blind_peekIs (class? : Char → Bool) : Blind (peekIs class?) := by
  refine blind_take.bind fun found => ?_
  split
  · exact blind_giveBack.bind fun _ => Blind.pure _
  · exact Blind.pure false

theorem blind_wordGoesOn : Blind wordGoesOn := by
  intro s t alike
  unfold wordGoesOn
  rw [← alike.keywordBoundary]
  split
  · exact blind_peekIs isLetter s t alike
  · exact ⟨rfl, alike⟩

theorem number_eq (start : Position) (pointSeen onlyZero : Bool) :
    number start pointSeen onlyZero = (do
      match ← take with
      | some c =>
          if isDigit c then
            if onlyZero && c = '0' then throw (.lexical ⟨start, .malformedNumber⟩)
            else number start pointSeen false
          else if c = '.' then
            if pointSeen then throw (.lexical ⟨start, .malformedNumber⟩)
            else number start true false
          else giveBack
      | none => pure () : Scan Unit) := by
  funext s
  rw [number, bind_apply]
  split <;> rename_i found <;> rw [found]
  · dsimp only
    split_ifs <;> rfl
  · rfl

theorem string_eq (start : Position) (escaped : Bool) (text : List Char) :
    string start escaped text = (do
      match ← take with
      | some c =>
          if c = '\n' then throw (.lexical ⟨start, .unterminatedString⟩)
          else if c = '"' then
            if escaped then string start false (c :: text)
            else pure (String.ofList text.reverse)
          else string start (if c = '\\' then !escaped else escaped) (c :: text)
      | none => throw (.lexical ⟨start, .unterminatedString⟩) : Scan String) := by
  funext s
  rw [string, bind_apply]
  split <;> rename_i found <;> rw [found]
  · dsimp only
    split_ifs <;> rfl
  · rfl

theorem blindAt_takeWhile (class? : Char → Bool) (s : Scanner) :
    BlindAt (takeWhile class? : Scan Unit) s := by
  rw [takeWhile_eq]
  refine (blind_take s).bind fun found next took => ?_
  cases found with
  | none => exact Blind.pure () next
  | some c =>
      dsimp only
      split_ifs
      · exact blindAt_takeWhile class? next
      · exact blind_giveBack next
termination_by s.left
decreasing_by exact left_take_lt took

theorem blindAt_number (start : Position) (pointSeen onlyZero : Bool) (s : Scanner) :
    BlindAt (number start pointSeen onlyZero : Scan Unit) s := by
  rw [number_eq]
  refine (blind_take s).bind fun found next took => ?_
  cases found with
  | none => exact Blind.pure () next
  | some c =>
      dsimp only
      split_ifs
      · exact Blind.throw _ next
      · exact blindAt_number start pointSeen false next
      · exact Blind.throw _ next
      · exact blindAt_number start true false next
      · exact blind_giveBack next
termination_by s.left
decreasing_by all_goals exact left_take_lt took

theorem blindAt_string (start : Position) (escaped : Bool) (text : List Char) (s : Scanner) :
    BlindAt (string start escaped text : Scan String) s := by
  rw [string_eq]
  refine (blind_take s).bind fun found next took => ?_
  cases found with
  | none => exact Blind.throw _ next
  | some c =>
      dsimp only
      split
      · exact Blind.throw _ next
      · split
        · split
          · exact blindAt_string start false _ next
          · exact Blind.pure _ next
        · exact blindAt_string start _ _ next
termination_by s.left
decreasing_by all_goals exact left_take_lt took

theorem blind_keyword (first : Char) : Blind (keyword first) := by
  unfold keyword
  split
  · exact Blind.pure none
  · rename_i rest kind known
    refine blind_takenCount.bind fun mark => (blind_takeTextFrom mark rest).bind fun matched => ?_
    split
    · refine blind_wordGoesOn.bind fun longer => ?_
      split
      · exact (blind_restore mark).bind fun _ => Blind.pure none
      · exact Blind.pure (some kind)
    · exact Blind.pure none

theorem blind_kindAfter (c : Char) : Blind (kindAfter c) := by
  unfold kindAfter
  split
  · exact Blind.pure _
  · split
    · refine Blind.bind (x := takeText _) ?_ fun matched => ?_
      · exact blind_takenCount.bind fun mark => blind_takeTextFrom mark _
      · split <;> exact Blind.pure _
    · split
      · exact Blind.bind (blindAt_takeWhile isBlank) fun _ => Blind.pure _
      · split
        · refine (blind_keyword c).bind fun found => ?_
          split
          · exact Blind.pure _
          · exact Blind.bind (blindAt_takeWhile isLetter) fun _ => Blind.pure _
        · exact Blind.pure _

theorem blind_tokenAfter (start : Position) (c : Char) : Blind (tokenAfter start c) := by
  unfold tokenAfter
  split
  · exact Blind.bind (blindAt_string start false []) fun _ => Blind.pure _
  · split
    · exact Blind.bind (blindAt_number start false _) fun _ =>
        blind_takenText.bind fun _ => Blind.pure _
    · exact (blind_kindAfter c).bind fun _ => blind_takenText.bind fun _ => Blind.pure _

end

variable {s t : Scanner}

theorem Alike.fresh (alike : s.Alike t) : s.fresh.Alike t.fresh :=
  ⟨alike.window.forget, alike.keywordBoundary, alike.position, rfl, alike.finished⟩

theorem blind_token : Blind token := by
  intro s t alike
  obtain ⟨result, next, next', taken, taken', behind⟩ := (blind_take s t alike).found
  unfold token
  rw [taken, taken']
  rcases result with fault | _ | c
  · exact ⟨rfl, behind⟩
  · refine ⟨by simp only [alike.position], ?_⟩
    exact ⟨behind.window, behind.keywordBoundary, behind.position, behind.taken, rfl⟩
  · dsimp only
    rw [← alike.position]
    exact blind_tokenAfter s.position c next next' behind

theorem alike_supplies : TokenSupply.Alike Alike := by
  intro s t alike
  obtain ⟨same, behind⟩ := blind_token s.fresh t.fresh alike.fresh
  show s.next.1 = t.next.1 ∧ s.next.2.Alike t.next.2
  rw [next_eq, next_eq]
  exact ⟨congrArg (Except.mapError ScanFault.reported) same, behind⟩

theorem Alike.after (alike : s.Alike t) (calls : Nat) : (s.after calls).Alike (t.after calls) := by
  induction calls with
  | zero => exact alike
  | succ calls ih => exact (alike_supplies _ _ ih).2

theorem alike_ofFeed {feed other : Feed} (alike : feed.Alike other) (keywordBoundary : Bool) :
    (ofFeed keywordBoundary feed).Alike (ofFeed keywordBoundary other) :=
  ⟨Window.alike_ofFeed alike, rfl, rfl, rfl, rfl⟩

end Scanner

section

variable {σ τ : Type} [TokenSupply σ] [TokenSupply τ]

theorem pull_of_alike {alike : σ → τ → Prop} (pulls : TokenSupply.Alike alike) {s next : σ} {t : τ}
    {result : Except LexFault Token} (same : alike s t) (found : TokenSupply.pull s = (result, next)) :
    ∃ next', TokenSupply.pull t = (result, next') ∧ alike next next' := by
  obtain ⟨first, behind⟩ := pulls s t same
  rw [found] at first behind
  exact ⟨(TokenSupply.pull t).2, Prod.ext first.symm rfl, behind⟩

theorem allTokens_eq_of_alike {alike : σ → τ → Prop} (pulls : TokenSupply.Alike alike) {s : σ} {t : τ}
    (same : alike s t) : allTokens s = allTokens t := by
  fun_induction allTokens s generalizing t with
  | case1 s fault next found =>
      obtain ⟨next', found', -⟩ := pull_of_alike pulls same found
      rw [allTokens_of_pull found']
  | case2 s u next found ends =>
      obtain ⟨next', found', -⟩ := pull_of_alike pulls same found
      rw [allTokens_of_pull found']
      exact (if_pos ends).symm
  | case3 s u next found more ih =>
      obtain ⟨next', found', behind⟩ := pull_of_alike pulls same found
      rw [allTokens_of_pull found', ih behind]
      exact (if_neg more).symm

end

/-- Streams of the same bytes cannot be told apart by how these are cut into reads and where reads are
interrupted: all reads of characters come to the same, whatever the bytes are, and so do the calls of the
scanner, the tokens of the whole stream and its tree. -/
theorem arrival_is_invisible {feed other : Feed} (unfailing : feed.Unfailing)
    (unfailing_other : other.Unfailing) (same : feed.bytes = other.bytes) :
    (∀ count, (Window.ofFeed feed).reads count = (Window.ofFeed other).reads count) ∧
    ∀ keywordBoundary,
      (∀ calls,
        let s := (Scanner.ofFeed keywordBoundary feed).after calls
        let t := (Scanner.ofFeed keywordBoundary other).after calls
        s.next.1 = t.next.1 ∧ s.position = t.position) ∧
      tokenize keywordBoundary feed = tokenize keywordBoundary other ∧
      parse (Scanner.ofFeed keywordBoundary feed) = parse (Scanner.ofFeed keywordBoundary other) := by
  have alike : feed.Alike other := ⟨unfailing, unfailing_other, same⟩
  refine ⟨(Window.alike_ofFeed alike).reads, fun keywordBoundary => ?_⟩
  have scanners := Scanner.alike_ofFeed alike keywordBoundary
  refine ⟨fun calls => ?_, ?_, ?_⟩
  · have reached := scanners.after calls
    exact ⟨(Scanner.alike_supplies _ _ reached).1, reached.position⟩
  · exact allTokens_eq_of_alike Scanner.alike_supplies scanners
  · exact parse_eq_of_alike Scanner.alike_supplies scanners

theorem split_character_unnoticed :
    let feed : Feed := [.interrupted, .bytes [0x61, 0xE2], .interrupted, .bytes [0x82], .interrupted,
      .bytes [0xAC, 0xC3], .interrupted]
    let other : Feed := [.bytes [0x61, 0xE2, 0x82, 0xAC, 0xC3]]
    feed.Unfailing ∧ other.Unfailing ∧ feed.bytes = other.bytes ∧
      (Window.ofFeed feed).reads 4 = (Window.ofFeed other).reads 4 ∧
      tokenize true feed = tokenize true other ∧
      parse (Scanner.ofFeed true feed) = parse (Scanner.ofFeed true other) := by
  intro feed other
  have unfailing : feed.Unfailing := by
    intro reason
    simp [feed]
  have unfailing' : other.Unfailing := by
    intro reason
    simp [other]
  obtain ⟨reads, scans⟩ := arrival_is_invisible unfailing unfailing' rfl
  exact ⟨unfailing, unfailing', rfl, reads 4, (scans true).2.1, (scans true).2.2⟩

end PredicateLang
