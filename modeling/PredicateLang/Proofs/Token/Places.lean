import PredicateLang.Proofs.Token.Coverage
import PredicateLang.Proofs.Token.Supplies

set_option autoImplicit false

namespace PredicateLang

namespace Position

theorem index_advance (p : Position) (c : Char) : (p.advance c).index = p.index + 1 := by
  unfold advance
  split <;> rfl

theorem toNat_index_advanceOver (p : Position) (text : List Char)
    (short : p.index.toNat + text.length < UInt32.size) :
    (p.advanceOver text).index.toNat = p.index.toNat + text.length := by
  induction text generalizing p with
  | nil => rfl
  | cons c text ih =>
      rw [List.length_cons] at short
      have one : (p.advance c).index.toNat = p.index.toNat + 1 := by
        rw [index_advance, UInt32.toNat_add]
        exact Nat.mod_eq_of_lt (Nat.lt_of_le_of_lt (by simp) short)
      rw [advanceOver_cons, ih _ (by omega), one, List.length_cons]
      omega

end Position

namespace Scanner

def Blames (origin : Position) {α : Type} (x : Scan α) : Prop :=
  ∀ (s next : Scanner) (fault : LexFault), x s = (.error (.lexical fault), next) →
    fault.position = origin ∨ fault.position = next.position

section

variable {origin : Position} {α β : Type}

theorem Blames.result (a : Scanner → α) : Blames origin (fun s => (.ok (a s), s) : Scan α) := by
  intro s next fault h
  cases h

theorem Blames.pure (a : α) : Blames origin (pure a : Scan α) := Blames.result fun _ => a

theorem Blames.bind {x : Scan α} {f : α → Scan β} (first : Blames origin x)
    (second : ∀ a, Blames origin (f a)) : Blames origin (x >>= f) := by
  intro s next fault h
  rw [bind_apply] at h
  split at h
  · rename_i a after found
    exact second a after next fault h
  · rename_i other after found
    cases h
    exact first s next fault found

theorem blames_take : Blames origin take := by
  intro s next fault h
  unfold take at h
  split at h
  · cases h
  · split at h <;> cases h
    exact .inr rfl

theorem blames_giveBack : Blames origin giveBack := by
  intro s next fault h
  unfold giveBack at h
  split at h
  · cases h
  · split at h <;> cases h

theorem blames_restore (mark : Nat) : Blames origin (restore mark) := by
  have many (count : Nat) : Blames origin (giveBackMany count) := by
    induction count with
    | zero => exact Blames.pure ()
    | succ count ih => exact blames_giveBack.bind fun _ => ih
  exact (Blames.result _).bind fun held => many _

theorem blames_takeTextFrom (mark : Nat) (expected : List Char) :
    Blames origin (takeTextFrom mark expected) := by
  induction expected with
  | nil => exact Blames.pure true
  | cons c rest ih =>
      refine blames_take.bind fun found => ?_
      split
      · exact ih
      · exact (blames_restore mark).bind fun _ => Blames.pure false

theorem blames_takeText (expected : List Char) : Blames origin (takeText expected) :=
  (Blames.result _).bind fun mark => blames_takeTextFrom mark expected

theorem blames_peekIs (class? : Char → Bool) : Blames origin (peekIs class?) := by
  refine blames_take.bind fun found => ?_
  split
  · exact blames_giveBack.bind fun _ => Blames.pure _
  · exact Blames.pure false

theorem blames_takeWhile (class? : Char → Bool) : Blames origin (takeWhile class? : Scan Unit) := by
  intro s next fault h
  fun_induction takeWhile class? s with
  | case1 s c after found inClass ih => exact ih h
  | case2 s c after found outside => exact blames_giveBack after next fault h
  | case3 s after found => cases h
  | case4 s other after found =>
      cases h
      exact blames_take s next fault found

theorem blames_number (pointSeen onlyZero : Bool) :
    Blames origin (number origin pointSeen onlyZero : Scan Unit) := by
  intro s next fault h
  fun_induction number origin pointSeen onlyZero s with
  | case1 => cases h; exact .inl rfl
  | case2 pointSeen onlyZero s c after found _ _ ih => exact ih h
  | case3 => cases h; exact .inl rfl
  | case4 pointSeen onlyZero s after _ found _ ih => exact ih h
  | case5 pointSeen onlyZero s c after => exact blames_giveBack after next fault h
  | case6 => cases h
  | case7 pointSeen onlyZero s other after found =>
      cases h
      exact blames_take s next fault found

theorem blames_string (escaped : Bool) (text : List Char) :
    Blames origin (string origin escaped text : Scan String) := by
  intro s next fault h
  fun_induction string origin escaped text s with
  | case1 => cases h; exact .inl rfl
  | case2 text s after found _ ih => exact ih h
  | case3 => cases h
  | case4 escaped text s c after found _ _ ih => exact ih h
  | case5 => cases h; exact .inl rfl
  | case6 escaped text s other after found =>
      cases h
      exact blames_take s next fault found

theorem blames_wordGoesOn : Blames origin wordGoesOn := by
  intro s next fault h
  unfold wordGoesOn at h
  split at h
  · exact blames_peekIs isLetter s next fault h
  · cases h

theorem blames_keyword (first : Char) : Blames origin (keyword first) := by
  unfold keyword
  split
  · exact Blames.pure none
  · rename_i rest kind known
    refine (Blames.result _).bind fun mark => (blames_takeTextFrom mark rest).bind fun matched => ?_
    split
    · refine blames_wordGoesOn.bind fun longer => ?_
      split
      · exact (blames_restore mark).bind fun _ => Blames.pure none
      · exact Blames.pure (some kind)
    · exact Blames.pure none

theorem blames_kindAfter (c : Char) : Blames origin (kindAfter c) := by
  unfold kindAfter
  split
  · exact Blames.pure _
  · split
    · refine (blames_takeText _).bind fun matched => ?_
      split <;> exact Blames.pure _
    · split
      · exact (blames_takeWhile isBlank).bind fun _ => Blames.pure _
      · split
        · refine (blames_keyword c).bind fun found => ?_
          split
          · exact Blames.pure _
          · exact (blames_takeWhile isLetter).bind fun _ => Blames.pure _
        · exact Blames.pure _

theorem blames_tokenAfter (c : Char) : Blames origin (tokenAfter origin c) := by
  unfold tokenAfter
  split
  · exact (blames_string false []).bind fun _ => Blames.pure _
  · split
    · exact (blames_number false _).bind fun _ => (Blames.result _).bind fun _ => Blames.pure _
    · exact (blames_kindAfter c).bind fun _ => (Blames.result _).bind fun _ => Blames.pure _

end

theorem blames_token {s next : Scanner} {fault : LexFault}
    (h : token s = (.error (.lexical fault), next)) :
    fault.position = s.position ∨ fault.position = next.position := by
  unfold token at h
  split at h
  · rename_i c after found
    exact blames_tokenAfter c after next fault h
  · cases h
  · rename_i other after found
    cases h
    exact blames_take s next fault found

theorem next_error {s : Scanner} {fault : LexFault} (drained : s.Drained)
    (h : s.next.1 = .error fault) :
    fault.position = s.position ∨ fault.position = s.next.2.position := by
  have supplied := (next_covers drained).2
  rw [next_eq] at h ⊢
  cases found : token s.fresh with
  | mk result next =>
      rw [found] at h supplied
      cases result with
      | ok t => cases h
      | error cause =>
          cases cause with
          | floor position => exact absurd rfl (supplied position)
          | lexical other =>
              cases h
              -- Forgetting the last token leaves the position where it was.
              have place : other.position = s.fresh.position ∨ other.position = next.position :=
                blames_token found
              exact place

def Countable (s : Scanner) : Prop := s.position.index.toNat + s.upcoming.length < UInt32.size

theorem next_countable {s : Scanner} (drained : s.Drained) (countable : s.Countable) :
    s.next.2.position.index.toNat = s.position.index.toNat + s.next.2.word.length ∧
      s.next.2.Countable := by
  obtain ⟨conserved, placed, -⟩ := (next_covers drained).1
  have total := congrArg List.length conserved
  rw [List.length_append] at total
  unfold Countable at countable ⊢
  have moved : s.next.2.position.index.toNat =
      s.position.index.toNat + s.next.2.word.length := by
    rw [placed]
    exact Position.toNat_index_advanceOver _ _ (by omega)
  exact ⟨moved, by omega⟩

theorem next_index_lt {s : Scanner} {t : Token} (drained : s.Drained) (countable : s.Countable)
    (h : s.next.1 = .ok t) (more : t.kind ≠ .eof) :
    t.position.index < s.next.2.position.index := by
  have fewer := upcoming_next_lt drained h more
  obtain ⟨moved, -⟩ := next_countable drained countable
  have total := congrArg List.length (next_covers drained).1.conserved
  rw [List.length_append] at total
  rw [(next_token drained h).1, UInt32.lt_iff_toNat_lt]
  omega

def deliveredAt : Except LexFault Token → UInt32
  | .ok t => t.position.index
  | .error fault => fault.position.index

theorem delivered_ascends {s : Scanner} (drained : s.Drained) (countable : s.Countable) :
    (delivered s).Pairwise (fun one other => deliveredAt one < deliveredAt other) ∧
      ∀ result ∈ delivered s, s.position.index ≤ deliveredAt result := by
  fun_induction delivered s with
  | case1 s fault next found =>
      have scanned : s.next = (.error fault, next) := found
      have moved := (next_countable drained countable).1
      refine ⟨List.pairwise_singleton _ _, List.forall_mem_singleton.2 ?_⟩
      show s.position.index ≤ fault.position.index
      rw [UInt32.le_iff_toNat_le]
      obtain place | place := next_error drained (congrArg Prod.fst scanned)
      · exact Nat.le_of_eq (congrArg (fun place => place.index.toNat) place.symm)
      · rw [place]
        omega
  | case2 s t next found ends =>
      have scanned : s.next = (.ok t, next) := found
      refine ⟨List.pairwise_singleton _ _, List.forall_mem_singleton.2 ?_⟩
      show s.position.index ≤ t.position.index
      rw [(next_token drained (congrArg Prod.fst scanned)).1]
      exact UInt32.le_refl _
  | case3 s t next found more ih =>
      have scanned : s.next = (.ok t, next) := found
      have place := (next_token drained (congrArg Prod.fst scanned)).1
      have still := (next_covers drained).1.drained
      have onward := (next_countable drained countable).2
      have before := next_index_lt drained countable (congrArg Prod.fst scanned) more
      rw [scanned] at still onward before
      obtain ⟨ascends, least⟩ := ih still onward
      have behind : ∀ result ∈ delivered next, t.position.index < deliveredAt result :=
        fun result later => UInt32.lt_of_lt_of_le before (least result later)
      refine ⟨List.pairwise_cons.2 ⟨behind, ascends⟩, ?_⟩
      refine List.forall_mem_cons.2 ⟨?_, fun result later => ?_⟩
      · show s.position.index ≤ t.position.index
        rw [place]
        exact UInt32.le_refl _
      · rw [← place]
        exact UInt32.le_of_lt (behind result later)

theorem legal_keyword (first : Char) :
    Yields (fun found => found ≠ some TokenKind.illegal) (keyword first) := by
  unfold keyword
  split
  · exact Yields.pure nofun
  · rename_i rest kind known
    have legal : kind ≠ .illegal := by
      rintro rfl
      unfold keywordRest? at known
      split at known <;> cases known
    refine Yields.after fun mark => Yields.after fun matched => ?_
    split
    · refine Yields.after fun longer => ?_
      split
      · exact Yields.after fun _ => Yields.pure nofun
      · exact Yields.pure (by simpa using legal)
    · exact Yields.pure nofun

theorem kindAfter_illegal {start : Position} {whole : List Char} {c : Char} {s next : Scanner}
    (coupled : Coupled start whole s) (begun : s.word = [c])
    (h : kindAfter c s = (.ok .illegal, next)) : next.word = [c] := by
  unfold kindAfter at h
  cases mark : punctuation? c with
  | some kind =>
      simp only [mark] at h
      cases h
      unfold punctuation? at mark
      split at mark <;> cases mark
  | none =>
      cases double : doubling? c with
      | some entry =>
          obtain ⟨second, long, short⟩ := entry
          simp only [mark, double] at h
          obtain ⟨matched, after, tried, h⟩ := bind_ok h
          have text := takeText_ok coupled tried
          cases matched with
          | true =>
              cases h
              unfold doubling? at double
              split at double <;> cases double
          | false =>
              cases h
              exact text.trans begun
      | none =>
          simp only [mark, double] at h
          split at h
          · obtain ⟨_, after, -, h⟩ := bind_ok h
            cases h
          · split at h
            · obtain ⟨found, after, known, h⟩ := bind_ok h
              have legal := legal_keyword c s after found known
              cases found with
              | some kind =>
                  cases h
                  exact absurd rfl legal
              | none =>
                  obtain ⟨_, last, -, h⟩ := bind_ok h
                  cases h
            · cases h
              exact begun

theorem next_illegal {s : Scanner} {t : Token} (drained : s.Drained) (h : s.next.1 = .ok t)
    (illegal : t.kind = .illegal) : ∃ c, t.text.toList = [c] := by
  have coupled := coupled_fresh drained
  replace h := next_ok h
  unfold token at h
  split at h
  · rename_i c after found
    have kept := (coupled_take coupled found).1
    have one : after.word = [c] := word_take found
    cases scanned : tokenAfter s.fresh.position c after with
    | mk outcome last =>
        rw [scanned] at h
        obtain rfl : outcome = .ok t := h
        refine ⟨c, ?_⟩
        unfold tokenAfter at scanned
        split at scanned
        · obtain ⟨_, _, -, scanned⟩ := bind_ok scanned
          cases scanned
          cases illegal
        · split at scanned
          · obtain ⟨_, _, -, scanned⟩ := bind_ok scanned
            cases scanned
            cases illegal
          · obtain ⟨kind, middle, read, scanned⟩ := bind_ok scanned
            cases scanned
            obtain rfl : kind = .illegal := illegal
            have alone := kindAfter_illegal kept one read
            simpa [word] using alone
  · cases h
    cases illegal
  · cases h

theorem delivered_illegal {s : Scanner} {t : Token} (drained : s.Drained)
    (present : .ok t ∈ delivered s) (illegal : t.kind = .illegal) : ∃ c, t.text.toList = [c] := by
  fun_induction delivered s with
  | case1 s other next found => cases List.mem_singleton.1 present
  | case2 s u next found ends =>
      cases List.mem_singleton.1 present
      rw [ends] at illegal
      cases illegal
  | case3 s u next found more ih =>
      have scanned : s.next = (.ok u, next) := found
      have still := (next_covers drained).1.drained
      rw [scanned] at still
      obtain same | later := List.mem_cons.1 present
      · cases same
        exact next_illegal drained (congrArg Prod.fst scanned) illegal
      · exact ih still later

end Scanner

end PredicateLang
