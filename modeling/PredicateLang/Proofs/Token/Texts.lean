import PredicateLang.Proofs.Token.Accounting
import PredicateLang.Token.Progress

set_option autoImplicit false

namespace PredicateLang

def Token.Spells (t : Token) (word : List Char) : Prop :=
  match t.kind with
  | .eof => word = [] ∧ t.text = ""
  | .string => word = '"' :: t.text.toList ++ ['"']
  | _ => word ≠ [] ∧ word = t.text.toList

def TokenKind.Admits (kind : TokenKind) (word : List Char) : Prop :=
  -- Only these kinds stand for more than one operator, so the text has to tell which.
  match kind with
  | .equalityOp => word = ['=', '='] ∨ word = ['!', '=']
  | .comparisonOp => word = ['<'] ∨ word = ['>'] ∨ word = ['<', '='] ∨ word = ['>', '=']
  | _ => True

def TokenKind.Plain (kind : TokenKind) : Prop := kind ≠ .eof ∧ kind ≠ .string

theorem Token.spells_plain {t : Token} {word : List Char} (plain : t.kind.Plain) :
    t.Spells word ↔ word ≠ [] ∧ word = t.text.toList := by
  obtain ⟨notEnd, notString⟩ := plain
  unfold Token.Spells
  split <;> simp_all

namespace Scanner

variable {start : Position} {whole : List Char}

theorem bind_ok {α β : Type} {x : Scan α} {g : α → Scan β} {s next : Scanner} {b : β}
    (h : (x >>= g) s = (.ok b, next)) :
    ∃ a after, x s = (.ok a, after) ∧ g a after = (.ok b, next) := by
  rw [bind_apply] at h
  cases found : x s with
  | mk result after =>
      rw [found] at h
      cases result with
      | error fault => cases h
      | ok a => exact ⟨a, after, rfl, h⟩

theorem takeTextFrom_ok {mark : Nat} {expected : List Char} {s next : Scanner} {matched : Bool}
    (coupled : Coupled start whole s) (above : mark ≤ s.taken.length)
    (h : takeTextFrom mark expected s = (.ok matched, next)) :
    if matched then next.word = s.word ++ expected
    else next.taken = s.taken.drop (s.taken.length - mark) := by
  induction expected generalizing s with
  | nil =>
      cases h
      simp
  | cons c rest ih =>
      rw [takeTextFrom] at h
      obtain ⟨taken, after, found, h⟩ := bind_ok h
      have kept := (coupled_take coupled found).1
      obtain ⟨back, gave, -, dropped⟩ := restore_coupled mark kept
      cases taken with
      | none =>
          simp only [reduceCtorEq, if_false, bind_apply, gave] at h
          cases h
          simp [dropped, taken_take_none found]
      | some d =>
          have longer := taken_take_some found
          -- What lies above the mark has grown by the character just taken.
          have one : s.taken.length + 1 - mark = (s.taken.length - mark) + 1 := by omega
          by_cases same : d = c
          · simp only [same, if_true] at h
            have more := ih kept (by simp [longer]; omega) h
            cases matched with
            | true => simpa [word_take found, same] using more
            | false => simpa [longer, one] using more
          · simp only [Option.some.injEq, same, if_false, bind_apply, gave] at h
            cases h
            simp [dropped, longer, one]

theorem takeText_ok {expected : List Char} {s next : Scanner} {matched : Bool}
    (coupled : Coupled start whole s) (h : takeText expected s = (.ok matched, next)) :
    next.word = if matched then s.word ++ expected else s.word := by
  have exact := takeTextFrom_ok coupled (Nat.le_refl _) h
  cases matched with
  | true => exact exact
  | false =>
      have same : next.taken = s.taken := by simpa using exact
      simp [word, same]

def Yields {α : Type} (sort : α → Prop) (x : Scan α) : Prop :=
  ∀ (s next : Scanner) (a : α), x s = (.ok a, next) → sort a

theorem Yields.pure {α : Type} {sort : α → Prop} {a : α} (good : sort a) :
    Yields sort (pure a : Scan α) := by
  intro s next b done
  cases done
  exact good

theorem Yields.bind {α β : Type} {first : α → Prop} {sort : β → Prop} {x : Scan α}
    {f : α → Scan β} (before : Yields first x) (behind : ∀ a, first a → Yields sort (f a)) :
    Yields sort (x >>= f) := by
  intro s next b done
  obtain ⟨a, after, found, rest⟩ := bind_ok done
  exact behind a (before s after a found) after next b rest

theorem Yields.after {α β : Type} {sort : β → Prop} {x : Scan α} {f : α → Scan β}
    (behind : ∀ a, Yields sort (f a)) : Yields sort (x >>= f) := by
  have any : Yields (fun _ => True) x := fun _ _ _ _ => trivial
  exact any.bind fun a _ => behind a

-- Of these kinds nothing is known but that tokens are made of their text.
def Free (kind : TokenKind) : Prop := kind.Plain ∧ ∀ word, kind.Admits word

theorem free_punctuation {c : Char} {kind : TokenKind} (h : punctuation? c = some kind) :
    Free kind := by
  unfold punctuation? at h
  split at h <;> cases h <;> simp [Free, TokenKind.Plain, TokenKind.Admits]

theorem free_keyword {first : Char} {rest : List Char} {kind : TokenKind}
    (h : keywordRest? first = some (rest, kind)) : Free kind := by
  unfold keywordRest? at h
  split at h <;> cases h <;> simp [Free, TokenKind.Plain, TokenKind.Admits]

theorem admits_doubling {c second : Char} {long short : TokenKind}
    (h : doubling? c = some (second, long, short)) :
    (long.Plain ∧ long.Admits [c, second]) ∧ (short.Plain ∧ short.Admits [c]) := by
  unfold doubling? at h
  split at h <;> cases h <;> simp [TokenKind.Plain, TokenKind.Admits]

theorem yields_keyword (first : Char) :
    Yields (fun found => ∀ kind, found = some kind → Free kind) (keyword first) := by
  unfold keyword
  split
  · exact Yields.pure nofun
  · rename_i rest kind known
    refine Yields.after fun mark => Yields.after fun matched => ?_
    split
    · refine Yields.after fun longer => ?_
      split
      · exact Yields.after fun _ => Yields.pure nofun
      · refine Yields.pure fun other same => ?_
        cases same
        exact free_keyword known
    · exact Yields.pure nofun

theorem kindAfter_ok {c : Char} {s next : Scanner} {kind : TokenKind}
    (coupled : Coupled start whole s) (begun : s.word = [c])
    (h : kindAfter c s = (.ok kind, next)) : kind.Plain ∧ kind.Admits next.word := by
  have free_of {x : Scan TokenKind} (free : Yields Free x) (done : x s = (.ok kind, next)) :
      kind.Plain ∧ kind.Admits next.word :=
    ⟨(free s next kind done).1, (free s next kind done).2 _⟩
  unfold kindAfter at h
  cases mark : punctuation? c with
  | some other =>
      simp only [mark] at h
      exact free_of (Yields.pure (free_punctuation mark)) h
  | none =>
      cases double : doubling? c with
      | some entry =>
          obtain ⟨second, long, short⟩ := entry
          obtain ⟨⟨longPlain, longText⟩, shortPlain, shortText⟩ := admits_doubling double
          simp only [mark, double] at h
          obtain ⟨matched, after, tried, h⟩ := bind_ok h
          have text := takeText_ok coupled tried
          cases matched with
          | true =>
              cases h
              exact ⟨longPlain, by simpa [text, begun] using longText⟩
          | false =>
              cases h
              exact ⟨shortPlain, by simpa [text, begun] using shortText⟩
      | none =>
          simp only [mark, double] at h
          refine free_of ?_ h
          have plain {kind : TokenKind} (other : kind = .whitespace ∨ kind = .identifier ∨
              kind = .illegal) : Free kind := by
            rcases other with rfl | rfl | rfl <;> simp [Free, TokenKind.Plain, TokenKind.Admits]
          split
          · exact Yields.after fun _ => Yields.pure (plain (by simp))
          · split
            · refine (yields_keyword c).bind fun found known => ?_
              cases found with
              | some kind => exact Yields.pure (known kind rfl)
              | none => exact Yields.after fun _ => Yields.pure (plain (by simp))
            · exact Yields.pure (plain (by simp))

theorem string_ok {origin : Position} {escaped : Bool} {text : List Char} {s next : Scanner}
    {inside : String} (begun : s.word = '"' :: text.reverse)
    (h : string origin escaped text s = (.ok inside, next)) :
    next.word = '"' :: inside.toList ++ ['"'] := by
  fun_induction string origin escaped text s with
  | case1 => cases h
  | case2 text s next' found _ ih => exact ih (by simp [word_take found, begun]) h
  | case3 escaped text s next' _ found =>
      cases h
      simp [word_take found, begun]
  | case4 escaped text s c next' found _ _ ih => exact ih (by simp [word_take found, begun]) h
  | case5 => cases h
  | case6 => cases h

theorem tokenAfter_ok {origin : Position} {c : Char} {s next : Scanner} {t : Token}
    (coupled : Coupled start whole s) (begun : s.word = [c])
    (h : tokenAfter origin c s = (.ok t, next)) :
    t.position = origin ∧ t.kind ≠ .eof ∧ t.Spells next.word ∧ t.kind.Admits next.word := by
  have one : s.taken.length = 1 := by simpa [word] using congrArg List.length begun
  -- The first character stays below the mark one, so it is never given back.
  have some : next.word ≠ [] := by
    have steady := (steady_tokenAfter 1 origin c s (by omega)).2
    rw [h] at steady
    have kept : 1 ≤ next.taken.length := steady t rfl
    intro none
    have length := congrArg List.length none
    simp [word] at length
    simp [length] at kept
  unfold tokenAfter at h
  split at h
  · rename_i quote
    obtain ⟨inside, after, read, h⟩ := bind_ok h
    cases h
    have text := string_ok (by simp [begun, quote]) read
    exact ⟨rfl, TokenKind.noConfusion, text, trivial⟩
  · split at h
    · obtain ⟨_, after, -, h⟩ := bind_ok h
      cases h
      refine ⟨rfl, TokenKind.noConfusion, ⟨some, ?_⟩, trivial⟩
      simp [word]
    · obtain ⟨kind, after, read, h⟩ := bind_ok h
      cases h
      obtain ⟨plain, admits⟩ := kindAfter_ok coupled begun read
      refine ⟨rfl, plain.1, (Token.spells_plain plain).2 ⟨some, ?_⟩, admits⟩
      simp [word]

end Scanner

end PredicateLang
