import PredicateLang.Proofs.Token.Accounting

set_option autoImplicit false

namespace PredicateLang

theorem allTokens_of_pull {σ : Type} [TokenSupply σ] {s next : σ} {result : Except LexFault Token}
    (found : TokenSupply.pull s = (result, next)) :
    allTokens s = match result with
      | .error fault => .error fault
      | .ok t => if t.kind = .eof then .ok [t] else (allTokens next).map (t :: ·) := by
  rw [allTokens]
  split <;> rename_i other <;> cases found.symm.trans other <;> rfl

namespace Scanner

def Reads (s : Scanner) (text : List Char) : Prop := s.finished = false ∧ s.window.Holds text

theorem reads_ofString (keywordBoundary : Bool) (source : String) :
    (ofString keywordBoundary source).Reads source.toList :=
  ⟨rfl, Window.holds_ofString source⟩

theorem reads_fresh {s : Scanner} {text : List Char} (reads : s.Reads text) : s.fresh.Reads text :=
  reads

theorem take_of_reads_cons {s : Scanner} {c : Char} {text : List Char} (reads : s.Reads (c :: text)) :
    ∃ next, take s = (.ok (some c), next) ∧ next.Reads text := by
  obtain ⟨running, holds⟩ := reads
  obtain ⟨window, found, rest⟩ := Window.read_of_holds_cons holds
  refine ⟨{ s with
    window := window
    taken := (s.position, c) :: s.taken
    position := s.position.advance c }, ?_, running, rest⟩
  simp [take, running, found]

theorem take_of_reads_nil {s : Scanner} (reads : s.Reads []) :
    ∃ next, take s = (.ok none, next) ∧ next.Reads [] := by
  obtain ⟨running, holds⟩ := reads
  obtain ⟨window, found, rest⟩ := Window.read_of_holds_nil holds
  refine ⟨{ s with window := window }, ?_, running, rest⟩
  simp [take, running, found]

theorem takeWhile_all {class? : Char → Bool} {s : Scanner} {text : List Char}
    (reads : s.Reads text) (all : ∀ c ∈ text, class? c = true) :
    ∃ next, takeWhile class? s = (.ok (), next) ∧ next.Reads [] := by
  induction text generalizing s with
  | nil =>
      obtain ⟨next, found, rest⟩ := take_of_reads_nil reads
      refine ⟨next, ?_, rest⟩
      rw [takeWhile]
      split <;> rename_i other <;> rw [found] at other <;> cases other
      rfl
  | cons c text ih =>
      obtain ⟨after, found, rest⟩ := take_of_reads_cons reads
      obtain ⟨next, took, ends⟩ := ih rest fun d present => all d (List.mem_cons_of_mem c present)
      refine ⟨next, ?_, ends⟩
      rw [takeWhile]
      split <;> rename_i other <;> rw [found] at other <;> cases other
      rw [if_pos (all c List.mem_cons_self), took]

theorem not_blank_of_punctuation {c : Char} {kind : TokenKind} (h : punctuation? c = some kind) :
    isBlank c = false := by
  unfold punctuation? at h
  split at h <;> cases h <;> decide

theorem not_blank_of_doubling {c : Char} {entry : Char × TokenKind × TokenKind}
    (h : doubling? c = some entry) : isBlank c = false := by
  unfold doubling? at h
  split at h <;> cases h <;> decide

theorem not_digit_of_blank {c : Char} (blank : isBlank c = true) : isDigit c = false := by
  rw [Bool.eq_false_iff]
  intro digit
  have bounds : '0' ≤ c ∧ c ≤ '9' := by simpa [isDigit] using digit
  have lower : 48 ≤ c.toNat := bounds.1
  have upper : c.toNat ≤ 57 := bounds.2
  simp [isBlank, inRanges, blankRanges] at blank
  omega

theorem kindAfter_blank {c : Char} (blank : isBlank c = true) :
    kindAfter c = (do
      takeWhile isBlank
      pure .whitespace : Scan TokenKind) := by
  have noMark : punctuation? c = none := by
    cases mark : punctuation? c with
    | none => rfl
    | some kind => simp [not_blank_of_punctuation mark] at blank
  have noPair : doubling? c = none := by
    cases double : doubling? c with
    | none => rfl
    | some entry => simp [not_blank_of_doubling double] at blank
  simp only [kindAfter, noMark, noPair, blank, if_true]

theorem next_of_blanks {s : Scanner} {c : Char} {text : List Char} (reads : s.Reads (c :: text))
    (blank : ∀ d ∈ c :: text, isBlank d = true) :
    ∃ t next, s.next = (.ok t, next) ∧ t.kind = .whitespace ∧ next.Reads [] := by
  obtain ⟨after, found, rest⟩ := take_of_reads_cons (reads_fresh reads)
  obtain ⟨next, took, ends⟩ := takeWhile_all rest fun d present =>
    blank d (List.mem_cons_of_mem c present)
  -- A blank begins neither a string nor a number, so the kind is found by the last branch.
  have first := blank c List.mem_cons_self
  have noQuote : c ≠ '"' := by
    rintro rfl
    cases first
  refine ⟨⟨.whitespace, s.fresh.position, String.ofList next.word⟩, next, ?_, rfl, ends⟩
  simp only [Scanner.next, token, found, tokenAfter, noQuote, if_false, not_digit_of_blank first,
    kindAfter_blank first, Bool.false_eq_true, bind_apply, took]
  rfl

theorem next_at_end {s : Scanner} (reads : s.Reads []) :
    ∃ t next, s.next = (.ok t, next) ∧ t.kind = .eof := by
  obtain ⟨after, found, -⟩ := take_of_reads_nil (reads_fresh reads)
  refine ⟨⟨.eof, s.fresh.position, ""⟩, { after with finished := true }, ?_, rfl⟩
  simp only [Scanner.next, token, found]
  rfl

theorem allTokens_of_end {s next : Scanner} {t : Token} (found : s.next = (.ok t, next))
    (ends : t.kind = .eof) : allTokens s = .ok [t] :=
  (allTokens_of_pull found).trans (if_pos ends)

theorem allTokens_of_more {s next : Scanner} {t : Token} (found : s.next = (.ok t, next))
    (more : t.kind ≠ .eof) : allTokens s = (allTokens next).map (t :: ·) :=
  (allTokens_of_pull found).trans (if_neg more)

theorem allTokens_of_blanks {s : Scanner} {text : List Char} (reads : s.Reads text)
    (blank : ∀ c ∈ text, isBlank c = true) :
    ∃ blanks finish, allTokens s = .ok (blanks ++ [finish]) ∧
      (∀ t ∈ blanks, t.kind = .whitespace) ∧ finish.kind = .eof := by
  cases text with
  | nil =>
      obtain ⟨finish, next, found, ends⟩ := next_at_end reads
      exact ⟨[], finish, allTokens_of_end found ends, List.forall_mem_nil _, ends⟩
  | cons c text =>
      obtain ⟨t, next, found, isBlank, rest⟩ := next_of_blanks reads blank
      obtain ⟨finish, last, found', ends⟩ := next_at_end rest
      refine ⟨[t], finish, ?_, by simpa using isBlank, ends⟩
      rw [allTokens_of_more found (by simp [isBlank]), allTokens_of_end found' ends]
      rfl

end Scanner

end PredicateLang
