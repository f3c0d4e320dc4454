import PredicateLang.Proofs.Token.Coverage
import PredicateLang.Proofs.Token.Steps
import PredicateLang.Token.Rules

set_option autoImplicit false

namespace PredicateLang

theorem takeWhile_append_of_stop {class? : Char → Bool} {run rest : List Char}
    (all : ∀ c ∈ run, class? c = true) (stops : beginsIn class? rest = false) :
    (run ++ rest).takeWhile class? = run := by
  rw [List.takeWhile_append_of_pos all]
  cases rest with
  | nil => simp
  | cons c rest =>
      have other : class? c = false := stops
      simp [other]

namespace Rules

def numeric (c : Char) : Bool := isDigit c || c = '.'

theorem malformed_append {front : List Char} (bad : malformed front = true)
    (behind : List Char) : malformed (front ++ behind) = true := by
  simp only [malformed, Bool.or_eq_true, decide_eq_true_eq] at bad ⊢
  refine bad.imp (fun many => ?_) fun zeros => ?_
  · rw [List.count_append]
    omega
  · have two : 2 ≤ front.length := by
      have length := congrArg List.length zeros
      simp only [List.length_take, List.length_cons, List.length_nil] at length
      omega
    rw [List.take_append_of_le_length two, zeros]

theorem malformed_take {run : List Char} (sound : malformed run = false) (n : Nat) :
    malformed (run.take n) = false := by
  rw [Bool.eq_false_iff] at sound ⊢
  intro bad
  have whole := malformed_append bad (run.drop n)
  rw [List.take_append_drop] at whole
  exact sound whole

theorem number_of_run {text run : List Char} (whole : text.takeWhile numeric = run) :
    number text = (((List.range (run.length + 1)).find? fun n => malformed (run.take n)).elim
      (.token .number run.length) (.fault .malformedNumber)) := by
  subst whole
  dsimp only [number]
  split <;> rename_i found <;> exact (congrArg (Option.elim · _ _) found).symm

theorem number_of_sound {run rest : List Char} (all : ∀ c ∈ run, numeric c = true)
    (stops : beginsIn numeric rest = false) (sound : malformed run = false) :
    number (run ++ rest) = .token .number run.length := by
  have unspoilt : ((List.range (run.length + 1)).find? fun n => malformed (run.take n)) = none := by
    rw [List.find?_range_eq_none]
    intro n _
    rw [malformed_take sound n]
    rfl
  rw [number_of_run (takeWhile_append_of_stop all stops), unspoilt]
  rfl

theorem number_of_malformed {front behind : List Char} {c : Char}
    (all : ∀ d ∈ front ++ [c], numeric d = true) (sound : malformed front = false)
    (bad : malformed (front ++ [c]) = true) :
    number (front ++ c :: behind) = .fault .malformedNumber (front.length + 1) := by
  have whole : (front ++ c :: behind).takeWhile numeric =
      (front ++ [c]) ++ behind.takeWhile numeric := by
    rw [← List.takeWhile_append_of_pos all, List.append_assoc, List.singleton_append]
  have first : ((List.range (((front ++ [c]) ++ behind.takeWhile numeric).length + 1)).find? fun n =>
      malformed (((front ++ [c]) ++ behind.takeWhile numeric).take n)) = some (front.length + 1) := by
    rw [List.find?_range_eq_some]
    refine ⟨?_, by simp, fun n before => ?_⟩
    · rw [List.take_left' (by simp)]
      exact bad
    · -- Every shorter beginning is one of the sound front.
      rw [List.append_assoc, List.take_append_of_le_length (by omega), malformed_take sound n]
      rfl
  rw [number_of_run whole, first]
  rfl

theorem malformed_snoc {front : List Char} (some : front ≠ []) (sound : malformed front = false)
    (c : Char) :
    malformed (front ++ [c]) = ((c = '.' && front.contains '.') || (c = '0' && front = ['0'])) := by
  simp only [malformed, Bool.or_eq_false_iff, decide_eq_false_iff_not, Nat.not_le] at sound
  obtain ⟨few, unlike⟩ := sound
  have points : (2 ≤ (front ++ [c]).count '.') ↔ c = '.' ∧ '.' ∈ front := by
    rw [List.count_append, List.count_singleton, ← List.count_pos_iff]
    by_cases point : c = '.'
    · simp only [point, beq_self_eq_true, if_true, true_and]
      omega
    · simp only [point, false_and, iff_false, Nat.not_le]
      simpa [Ne.symm point, point] using few
  have zeros : (front ++ [c]).take 2 = ['0', '0'] ↔ c = '0' ∧ front = ['0'] := by
    rcases front with _ | ⟨a, _ | ⟨b, front⟩⟩
    · exact absurd rfl some
    · simp [and_comm]
    · simpa using fun one two => unlike (by simp [one, two])
  rw [Bool.eq_iff_iff]
  simp only [malformed, Bool.or_eq_true, Bool.and_eq_true, decide_eq_true_eq, points, zeros,
    List.contains_iff_mem]

def Open (inside : List Char) : Prop :=
  ∀ front c behind, inside = front ++ c :: behind → closes front c = false

theorem open_nil : Open [] := by
  intro front c behind same
  simp at same

theorem Open.snoc {inside : List Char} {c : Char} (still : Open inside)
    (more : closes inside c = false) : Open (inside ++ [c]) := by
  intro front d behind same
  induction behind using List.reverseRecOn with
  | nil =>
      obtain ⟨rfl, last⟩ := List.append_inj' same rfl
      cases last
      exact more
  | append_singleton behind e _ =>
      have split : front ++ d :: (behind ++ [e]) = (front ++ d :: behind) ++ [e] := by simp
      rw [split] at same
      obtain ⟨whole, -⟩ := List.append_inj' same rfl
      exact still front d behind whole

theorem Open.at {inside : List Char} (still : Open inside) {n : Nat} (inner : n < inside.length)
    (behind : List Char) :
    closes ((inside ++ behind).take n) ((inside ++ behind).getD n '\n') = false := by
  have split : inside = inside.take n ++ inside[n] :: inside.drop (n + 1) := by
    rw [← List.drop_eq_getElem_cons inner, List.take_append_drop]
  have there : (inside ++ behind).getD n '\n' = inside[n] := by
    simp [List.getD, List.getElem?_append_left inner, inner]
  rw [List.take_append_of_le_length (Nat.le_of_lt inner), there]
  exact still _ _ _ split

theorem closing?_of_open {inside : List Char} (still : Open inside) : closing? inside = none := by
  rw [closing?, List.find?_range_eq_none]
  intro n inner
  have not := still.at inner []
  rw [List.append_nil] at not
  rw [not]
  rfl

theorem closing?_of_closes {inside behind : List Char} {c : Char} (still : Open inside)
    (ends : closes inside c = true) : closing? (inside ++ c :: behind) = some inside.length := by
  rw [closing?, List.find?_range_eq_some]
  refine ⟨?_, by simp, fun n before => ?_⟩
  · simpa using ends
  · rw [still.at before]
    rfl

theorem string_of_open {inside : List Char} (still : Open inside) :
    string inside = .fault .unterminatedString (inside.length + 1) := by
  rw [string, closing?_of_open still]

theorem string_of_newline {inside behind : List Char} (still : Open inside) :
    string (inside ++ '\n' :: behind) = .fault .unterminatedString (inside.length + 2) := by
  rw [string, closing?_of_closes still (by simp [closes])]
  simp

theorem string_of_quote {inside behind : List Char} (still : Open inside)
    (bare : escaped inside = false) :
    string (inside ++ '"' :: behind) = .token .string (inside.length + 2) := by
  rw [string, closing?_of_closes still (by simp [closes, bare])]
  simp

theorem escaped_snoc (inside : List Char) (c : Char) :
    escaped (inside ++ [c]) =
      if c = '\\' then !escaped inside else escaped inside && c != '"' := by
  simp [escaped]

theorem letters_of_keyword {c : Char} {rest : List Char} {kind : TokenKind}
    (known : keywordRest? c = some (rest, kind)) : ∀ d ∈ c :: rest, isLetter d = true := by
  have all : (c :: rest).all isLetter = true := by
    unfold keywordRest? at known
    split at known <;> cases known <;> decide +kernel
  exact List.all_eq_true.mp all

theorem takeWhile_of_stop {class? : Char → Bool} {text : List Char}
    (stops : beginsIn class? text = false) : text.takeWhile class? = [] := by
  cases text with
  | nil => rfl
  | cons c text =>
      have other : class? c = false := stops
      simp [other]

theorem begins?_keyword {c : Char} {rest r : List Char} {kind : TokenKind}
    (known : keywordRest? c = some (rest, kind)) (allowed : List Char × TokenKind → Bool)
    (suits : allowed (c :: rest, kind) = true) :
    begins? (keywords.filter allowed) (c :: (rest ++ r)) = some (.token kind (rest.length + 1)) := by
  unfold keywordRest? at known
  rw [begins?, List.find?_filter]
  split at known <;> cases known <;> simp [keywords, suits]

theorem begins?_other {c : Char} {r : List Char} (allowed : List Char × TokenKind → Bool)
    (differs : ∀ rest kind, keywordRest? c = some (rest, kind) →
      allowed (c :: rest, kind) = true → ¬ rest <+: r) :
    begins? (keywords.filter allowed) (c :: r) = none := by
  rw [begins?, Option.map_eq_none_iff, List.find?_eq_none]
  intro entry present front
  obtain ⟨member, suits⟩ := List.mem_filter.1 present
  rw [List.isPrefixOf_iff_prefix] at front
  simp only [keywords, List.mem_cons, List.not_mem_nil, or_false] at member
  rcases member with rfl | rfl | rfl | rfl <;> obtain ⟨rfl, more⟩ := List.cons_prefix_cons.1 front <;>
    exact differs _ _ rfl suits more

def allows (keywordBoundary : Bool) (letters : List Char) (entry : List Char × TokenKind) : Bool :=
  !keywordBoundary || entry.1.length = letters.length

theorem word_eq (keywordBoundary : Bool) (text : List Char) :
    word keywordBoundary text =
      (begins? (keywords.filter (allows keywordBoundary (text.takeWhile isLetter))) text).getD
        (.token .identifier (text.takeWhile isLetter).length) := by
  cases keywordBoundary <;> rfl

theorem length_letters {c : Char} {rest r : List Char} {kind : TokenKind}
    (known : keywordRest? c = some (rest, kind)) :
    ((c :: (rest ++ r)).takeWhile isLetter).length =
      (c :: rest).length + (r.takeWhile isLetter).length := by
  rw [← List.cons_append, List.takeWhile_append_of_pos (letters_of_keyword known),
    List.length_append]

theorem word_of_keyword {keywordBoundary : Bool} {c : Char} {rest r : List Char} {kind : TokenKind}
    (known : keywordRest? c = some (rest, kind))
    (free : (keywordBoundary && beginsIn isLetter r) = false) :
    word keywordBoundary (c :: (rest ++ r)) = .token kind (rest.length + 1) := by
  have suits : allows keywordBoundary ((c :: (rest ++ r)).takeWhile isLetter) (c :: rest, kind) =
      true := by
    rw [allows, length_letters known]
    cases keywordBoundary with
    | false => rfl
    | true => simp [takeWhile_of_stop free]
  rw [word_eq, begins?_keyword known _ suits]
  rfl

theorem word_of_other {keywordBoundary : Bool} {c : Char} {r : List Char}
    (differs : ∀ rest kind, keywordRest? c = some (rest, kind) → ¬ rest <+: r) :
    word keywordBoundary (c :: r) = .token .identifier ((c :: r).takeWhile isLetter).length := by
  rw [word_eq, begins?_other _ fun rest kind known _ => differs rest kind known]
  rfl

theorem word_of_longer {c : Char} {rest r : List Char} {kind : TokenKind}
    (known : keywordRest? c = some (rest, kind)) (longer : beginsIn isLetter r = true) :
    word true (c :: (rest ++ r)) =
      .token .identifier ((c :: (rest ++ r)).takeWhile isLetter).length := by
  have more : 0 < (r.takeWhile isLetter).length := by
    cases r with
    | nil => cases longer
    | cons d r =>
        have letter : isLetter d = true := longer
        simp [letter]
  rw [word_eq, begins?_other]
  · rfl
  · -- The only keyword that could stand here is shorter than the run of letters.
    intro rest' kind' known' suits
    rw [known] at known'
    cases known'
    simp only [allows, Bool.not_true, Bool.false_or, decide_eq_true_eq, length_letters known] at suits
    omega

theorem not_letter_of_punctuation {c : Char} {kind : TokenKind}
    (mark : punctuation? c = some kind) : isLetter c = false := by
  unfold punctuation? at mark
  split at mark <;> cases mark <;> decide +kernel

theorem not_letter_of_doubling {c : Char} {entry : Char × TokenKind × TokenKind}
    (double : doubling? c = some entry) : isLetter c = false := by
  unfold doubling? at double
  split at double <;> cases double <;> decide +kernel

def mark (text : List Char) : Found :=
  ((begins? pairs text).or (begins? singles text)).getD (.token .illegal 1)

theorem mark_of_punctuation {c : Char} {kind : TokenKind} (known : punctuation? c = some kind)
    (rest : List Char) : mark (c :: rest) = .token kind 1 := by
  unfold punctuation? at known
  split at known <;> cases known <;> simp [mark, begins?, pairs, singles]

theorem mark_of_pair {c second : Char} {long short : TokenKind}
    (known : doubling? c = some (second, long, short)) (rest : List Char) :
    mark (c :: second :: rest) = .token long 2 := by
  unfold doubling? at known
  split at known <;> cases known <;> simp [mark, begins?, pairs]

theorem mark_of_single {c second : Char} {long short : TokenKind} {rest : List Char}
    (known : doubling? c = some (second, long, short)) (differs : ¬ [second] <+: rest) :
    mark (c :: rest) = .token short 1 := by
  have other : [second].isPrefixOf rest = false := by
    rwa [Bool.eq_false_iff, Ne, List.isPrefixOf_iff_prefix]
  unfold doubling? at known
  split at known <;> cases known <;> simp [mark, begins?, pairs, singles, other]

def marks (c : Char) : Bool := (punctuation? c).isSome || (doubling? c).isSome

theorem begins?_of_unmarked {words : List (List Char × TokenKind)} {c : Char}
    (marked : ∀ entry ∈ words, beginsIn marks entry.1 = true) (unmarked : marks c = false)
    (rest : List Char) : begins? words (c :: rest) = none := by
  rw [begins?, Option.map_eq_none_iff, List.find?_eq_none]
  intro entry present front
  have first := marked entry present
  rw [List.isPrefixOf_iff_prefix] at front
  cases spelled : entry.1 with
  | nil =>
      rw [spelled] at first
      cases first
  | cons d more =>
      rw [spelled] at first front
      obtain ⟨rfl, -⟩ := List.cons_prefix_cons.1 front
      rw [beginsIn, List.head?_cons, Option.any_some, unmarked] at first
      cases first

theorem mark_of_none {c : Char} (noMark : punctuation? c = none) (noPair : doubling? c = none)
    (rest : List Char) : mark (c :: rest) = .token .illegal 1 := by
  have unmarked : marks c = false := by simp [marks, noMark, noPair]
  rw [mark, begins?_of_unmarked (by decide) unmarked, begins?_of_unmarked (by decide) unmarked]
  rfl

end Rules

namespace Scanner

open Rules

def Obeys {α : Type} (keywordBoundary : Bool) (start : Position) (whole : List Char) (f : Found)
    (value : TokenKind → List Char → α) (outcome : Except ScanFault α × Scanner) : Prop :=
  ∃ word rest, whole = word ++ rest ∧ Midway keywordBoundary start word rest outcome.2 ∧
    match f with
    | .token kind length => word.length = length ∧ outcome.1 = .ok (value kind word)
    | .fault cause length => word.length = length ∧ outcome.1 = .error (.lexical ⟨start, cause⟩)

variable {keywordBoundary : Bool} {start : Position} {word rest whole : List Char} {s : Scanner}
  {f : Found}

theorem Obeys.bind {α β : Type} {x : Scan α} {g : α → Scan β} {value : TokenKind → List Char → α}
    {value' : TokenKind → List Char → β}
    (obeys : Obeys keywordBoundary start whole f value (x s))
    (goesOn : ∀ kind length, f = .token kind length → ∀ word rest next,
      x s = (.ok (value kind word), next) → Midway keywordBoundary start word rest next →
        g (value kind word) next = (.ok (value' kind word), next)) :
    Obeys keywordBoundary start whole f value' ((x >>= g) s) := by
  obtain ⟨word, rest, split, mid, reported⟩ := obeys
  rw [bind_apply]
  cases found : x s with
  | mk result next =>
      rw [found] at mid reported
      cases f with
      | token kind length =>
          obtain ⟨same, rfl⟩ := reported
          have onward := goesOn kind length rfl word rest next found mid
          change Obeys keywordBoundary start whole _ value' (g (value kind word) next)
          rw [onward]
          exact ⟨word, rest, split, mid, same, rfl⟩
      | fault cause length =>
          obtain ⟨same, rfl⟩ := reported
          exact ⟨word, rest, split, mid, same, rfl⟩

variable {pointSeen onlyZero : Bool} {next : Scanner}

theorem number_numeral {c : Char} (found : take s = (.ok (some c), next))
    (numeral : numeric c = true) :
    number start pointSeen onlyZero s =
      if (c = '.' && pointSeen) || (c = '0' && onlyZero) then
        (.error (.lexical ⟨start, .malformedNumber⟩), next)
      else number start (pointSeen || c = '.') false next := by
  rw [number]
  split <;> rename_i other <;> rw [found] at other <;> cases other
  cases digit : isDigit c with
  | true =>
      have noPoint : c ≠ '.' := by
        rintro rfl
        cases digit
      simp [noPoint, Bool.and_comm]
  | false =>
      have point : c = '.' := by simpa [numeric, digit] using numeral
      cases pointSeen <;> simp [point]

theorem number_other {c : Char} (found : take s = (.ok (some c), next))
    (other : numeric c = false) : number start pointSeen onlyZero s = giveBack next := by
  have apart : isDigit c = false ∧ c ≠ '.' := by simpa [numeric] using other
  rw [number]
  split <;> rename_i other <;> rw [found] at other <;> cases other
  rw [if_neg (by simp [apart.1]), if_neg apart.2]

theorem number_end (found : take s = (.ok none, next)) :
    number start pointSeen onlyZero s = (.ok (), next) := by
  rw [number]
  split <;> rename_i other <;> rw [found] at other <;> cases other
  rfl

theorem number_obeys (some : word ≠ []) (all : ∀ c ∈ word, numeric c = true)
    (sound : malformed word = false) (points : pointSeen = word.contains '.')
    (zeros : onlyZero = decide (word = ['0']))
    (mid : Midway keywordBoundary start word rest s) :
    Obeys keywordBoundary start (word ++ rest) (Rules.number (word ++ rest)) (fun _ _ => ())
      (number start pointSeen onlyZero s) := by
  -- The flags say of the characters taken so far what would make the next one too much.
  induction rest generalizing word pointSeen onlyZero s with
  | nil =>
      obtain ⟨next, found, mid'⟩ := take_nil mid
      rw [number_of_sound all rfl sound, number_end found]
      exact ⟨word, [], rfl, mid', rfl, rfl⟩
  | cons c rest ih =>
      obtain ⟨after, found, mid'⟩ := take_cons mid
      have split : word ++ c :: rest = (word ++ [c]) ++ rest := by simp
      cases numeral : numeric c with
      | true =>
          have all' : ∀ d ∈ word ++ [c], numeric d = true := by
            simpa [or_imp, forall_and, numeral] using all
          rw [number_numeral found numeral, points, zeros, ← malformed_snoc some sound c]
          cases bad : malformed (word ++ [c]) with
          | true =>
              rw [number_of_malformed all' sound bad]
              exact ⟨word ++ [c], rest, split, mid', by simp, rfl⟩
          | false =>
              rw [split]
              refine ih (by simp) all' bad ?_ ?_ mid'
              · simp [Bool.or_comm, eq_comm]
              · simp [List.append_eq_singleton_iff, some]
      | false =>
          obtain ⟨next, gave, mid''⟩ := giveBack_snoc mid'
          have stops : beginsIn numeric (c :: rest) = false := numeral
          rw [number_of_sound all stops sound, number_other found numeral, gave]
          exact ⟨word, c :: rest, rfl, mid'', rfl, rfl⟩

variable {escaped : Bool} {text : List Char}

theorem string_take {c : Char} (found : take s = (.ok (some c), next)) :
    string start escaped text s =
      if c = '\n' then (.error (.lexical ⟨start, .unterminatedString⟩), next)
      else if c = '"' ∧ escaped = false then (.ok (String.ofList text.reverse), next)
      else string start (if c = '\\' then !escaped else escaped && c != '"') (c :: text) next := by
  rw [string]
  split <;> rename_i other <;> rw [found] at other <;> cases other
  by_cases newline : c = '\n'
  · simp [newline]
  · by_cases quote : c = '"'
    · cases escaped <;> simp [quote]
    · have kept : (c != '"') = true := by simpa using quote
      simp [newline, quote, kept]

theorem string_end (found : take s = (.ok none, next)) :
    string start escaped text s = (.error (.lexical ⟨start, .unterminatedString⟩), next) := by
  rw [string]
  split <;> rename_i other <;> rw [found] at other <;> cases other
  rfl

theorem string_obeys {inside : List Char} (still : Open inside)
    (flag : escaped = Rules.escaped inside)
    (mid : Midway keywordBoundary start ('"' :: inside) rest s) :
    Obeys keywordBoundary start ('"' :: (inside ++ rest)) (Rules.string (inside ++ rest))
      (fun _ word => lexeme .string word) (string start escaped inside.reverse s) := by
  induction rest generalizing inside escaped s with
  | nil =>
      obtain ⟨next, found, mid'⟩ := take_nil mid
      rw [List.append_nil, string_of_open still, string_end found]
      exact ⟨'"' :: inside, [], by simp, mid', by simp, rfl⟩
  | cons c rest ih =>
      obtain ⟨after, found, mid'⟩ := take_cons mid
      have split : '"' :: (inside ++ c :: rest) = ('"' :: inside ++ [c]) ++ rest := by simp
      rw [string_take found]
      by_cases newline : c = '\n'
      · subst newline
        rw [string_of_newline still, if_pos rfl]
        exact ⟨'"' :: inside ++ ['\n'], rest, split, mid', by simp, rfl⟩
      · by_cases ends : c = '"' ∧ escaped = false
        · obtain ⟨rfl, bare⟩ := ends
          rw [string_of_quote still (flag.symm.trans bare), if_neg newline, if_pos ⟨rfl, bare⟩]
          refine ⟨'"' :: inside ++ ['"'], rest, split, mid', by simp, ?_⟩
          simp [lexeme]
        · have more : closes inside c = false := by
            rw [closes, ← flag]
            simpa [newline] using ends
          have shift : inside ++ c :: rest = (inside ++ [c]) ++ rest := by simp
          have reversed : c :: inside.reverse = (inside ++ [c]).reverse := by simp
          rw [if_neg newline, if_neg ends, shift, reversed]
          exact ih (still.snoc more) (by rw [escaped_snoc, flag]) mid'

theorem keyword_obeys {c : Char} (mid : Midway keywordBoundary start [c] rest s) :
    ∃ found next, keyword c s = (.ok found, next) ∧
      ((∃ kind more behind, found = some kind ∧ rest = more ++ behind ∧
          Rules.word keywordBoundary (c :: rest) = .token kind (c :: more).length ∧
          Midway keywordBoundary start (c :: more) behind next) ∨
        found = none ∧ Midway keywordBoundary start [c] rest next ∧
          Rules.word keywordBoundary (c :: rest) =
            .token .identifier ((c :: rest).takeWhile isLetter).length) := by
  unfold keyword
  cases known : keywordRest? c with
  | none =>
      refine ⟨none, s, rfl, .inr ⟨rfl, mid, word_of_other fun more kind known' => ?_⟩⟩
      rw [known] at known'
      cases known'
  | some entry =>
      obtain ⟨more, kind⟩ := entry
      have mark : takenCount s = (.ok [c].length, s) := by rw [takenCount, mid.mark]
      by_cases front : more <+: rest
      · obtain ⟨behind, rfl⟩ := front
        obtain ⟨matched, found, held⟩ := takeTextFrom_matches [c].length more mid
        obtain ⟨looked, ahead, seen⟩ := wordGoesOn_text held
        cases longer : keywordBoundary && beginsIn isLetter behind with
        | true =>
            obtain ⟨boundary, letter⟩ := Bool.and_eq_true_iff.1 longer
            subst boundary
            obtain ⟨next, gave, back⟩ := restore_append seen
            refine ⟨none, next, ?_, .inr ⟨rfl, back, word_of_longer known letter⟩⟩
            simp only [bind_apply, mark, found, ahead, longer, if_true, gave]
            rfl
        | false =>
            refine ⟨some kind, looked, ?_, .inl ⟨kind, more, behind, rfl, rfl,
              word_of_keyword known longer, seen⟩⟩
            simp only [bind_apply, mark, found, ahead, longer, if_true, if_false, Bool.false_eq_true]
            rfl
      · obtain ⟨next, missed, back⟩ := takeTextFrom_differs [] front (by simpa using mid)
        refine ⟨none, next, ?_, .inr ⟨rfl, back, word_of_other fun more' kind' known' => ?_⟩⟩
        · simp only [bind_apply, mark, missed, if_false, Bool.false_eq_true]
          rfl
        · rw [known] at known'
          cases known'
          exact front

theorem letters_obey {c : Char} (letter : isLetter c = true)
    (mid : Midway keywordBoundary start [c] rest s) :
    Obeys keywordBoundary start (c :: rest) (Rules.word keywordBoundary (c :: rest))
      (fun kind _ => kind) ((do
        match ← keyword c with
        | some kind => pure kind
        | none =>
            takeWhile isLetter
            pure .identifier : Scan TokenKind) s) := by
  obtain ⟨found, next, sought, known | unknown⟩ := keyword_obeys mid
  · obtain ⟨kind, more, behind, rfl, rfl, same, held⟩ := known
    rw [bind_apply, sought, same]
    exact ⟨c :: more, behind, rfl, held, rfl, rfl⟩
  · obtain ⟨rfl, back, same⟩ := unknown
    obtain ⟨last, took, held⟩ := takeWhile_text isLetter back
    rw [bind_apply, sought, same]
    simp only [bind_apply, took]
    refine ⟨[c] ++ rest.takeWhile isLetter, rest.dropWhile isLetter, ?_, held, ?_, rfl⟩
    · simp [List.takeWhile_append_dropWhile]
    · simp [letter]

theorem blanks_obey {c : Char} (blank : isBlank c = true)
    (mid : Midway keywordBoundary start [c] rest s) :
    Obeys keywordBoundary start (c :: rest)
      (.token .whitespace ((c :: rest).takeWhile isBlank).length) (fun kind _ => kind) ((do
        takeWhile isBlank
        pure .whitespace : Scan TokenKind) s) := by
  obtain ⟨next, took, held⟩ := takeWhile_text isBlank mid
  simp only [bind_apply, took]
  refine ⟨[c] ++ rest.takeWhile isBlank, rest.dropWhile isBlank, ?_, held, ?_, rfl⟩
  · simp [List.takeWhile_append_dropWhile]
  · simp [blank]

theorem pair_obeys {c second : Char} {long short : TokenKind}
    (known : doubling? c = some (second, long, short))
    (mid : Midway keywordBoundary start [c] rest s) :
    Obeys keywordBoundary start (c :: rest) (mark (c :: rest)) (fun kind _ => kind) ((do
        if ← takeText [second] then pure long else pure short : Scan TokenKind) s) := by
  have marked : takeText [second] s = takeTextFrom [c].length [second] s := by
    rw [← mid.mark]
    rfl
  by_cases front : [second] <+: rest
  · obtain ⟨behind, rfl⟩ := front
    obtain ⟨next, matched, held⟩ := takeTextFrom_matches [c].length [second] mid
    rw [List.singleton_append, mark_of_pair known]
    simp only [bind_apply, marked, matched]
    exact ⟨[c, second], behind, rfl, held, rfl, rfl⟩
  · obtain ⟨next, missed, back⟩ := takeTextFrom_differs [] front (by simpa using mid)
    rw [mark_of_single known front]
    simp only [bind_apply, marked, missed]
    exact ⟨[c], rest, rfl, back, rfl, rfl⟩

theorem kindAfter_obeys {c : Char} (noQuote : c ≠ '"') (noDigit : isDigit c = false)
    (mid : Midway keywordBoundary start [c] rest s) :
    Obeys keywordBoundary start (c :: rest) (found keywordBoundary (c :: rest))
      (fun kind _ => kind) (kindAfter c s) := by
  have begun : found keywordBoundary (c :: rest) =
      if isBlank c then .token .whitespace ((c :: rest).takeWhile isBlank).length
      else if isLetter c then Rules.word keywordBoundary (c :: rest)
      else mark (c :: rest) := by
    rw [found, if_neg noQuote, if_neg (by simp [noDigit])]
    rfl
  rw [begun, kindAfter]
  cases known : punctuation? c with
  | some kind =>
      rw [not_blank_of_punctuation known, not_letter_of_punctuation known, mark_of_punctuation known]
      exact ⟨[c], rest, rfl, mid, rfl, rfl⟩
  | none =>
      cases double : doubling? c with
      | some entry =>
          rw [not_blank_of_doubling double, not_letter_of_doubling double]
          exact pair_obeys double mid
      | none =>
          cases blank : isBlank c with
          | true => exact blanks_obey blank mid
          | false =>
              cases letter : isLetter c with
              | true => exact letters_obey letter mid
              | false =>
                  simp only [Bool.false_eq_true, if_false]
                  rw [mark_of_none known double]
                  exact ⟨[c], rest, rfl, mid, rfl, rfl⟩

theorem kind_of_number {text : List Char} {kind : TokenKind} {length : Nat}
    (h : Rules.number text = .token kind length) : kind = .number := by
  unfold Rules.number at h
  dsimp only at h
  split at h <;> cases h
  rfl

theorem kind_of_string {text : List Char} {kind : TokenKind} {length : Nat}
    (h : Rules.string text = .token kind length) : kind = .string := by
  unfold Rules.string at h
  split at h
  · cases h
  · split at h <;> cases h
    rfl

theorem takenText_text (mid : Midway keywordBoundary start word rest s) :
    takenText s = (.ok (String.ofList word), s) := by
  rw [takenText, ← mid.spelled]
  rfl

theorem tokenAfter_obeys {c : Char} (mid : Midway keywordBoundary start [c] rest s) :
    Obeys keywordBoundary start (c :: rest) (found keywordBoundary (c :: rest))
      (fun kind word => (⟨kind, start, lexeme kind word⟩ : Token)) (tokenAfter start c s) := by
  unfold tokenAfter
  by_cases quote : c = '"'
  · subst quote
    rw [if_pos rfl]
    refine (string_obeys open_nil rfl mid).bind fun kind length finds word rest next _ held => ?_
    cases kind_of_string finds
    rfl
  · rw [if_neg quote]
    cases digit : isDigit c with
    | true =>
        have noPoint : c ≠ '.' := by
          rintro rfl
          cases digit
        have begun : found keywordBoundary (c :: rest) = Rules.number ([c] ++ rest) := by
          rw [found, if_neg quote, if_pos digit]
          rfl
        have sound : malformed [c] = false := by simp [malformed, noPoint]
        have points : false = [c].contains '.' := by simp [noPoint.symm]
        rw [begun]
        refine (number_obeys (by simp) (by simp [numeric, digit]) sound points (by simp) mid).bind
          fun kind length finds word rest next _ held => ?_
        cases kind_of_number finds
        simp only [bind_apply, takenText_text held]
        rfl
    | false =>
        refine (kindAfter_obeys quote digit mid).bind fun kind length _ word rest next read held => ?_
        have plain := (kindAfter_ok mid.coupled mid.spelled read).1
        simp only [bind_apply, takenText_text held, lexeme, if_neg plain.2]
        rfl

theorem token_obeys (mid : Midway keywordBoundary start [] rest s) :
    Obeys keywordBoundary start rest (found keywordBoundary rest)
      (fun kind word => (⟨kind, start, lexeme kind word⟩ : Token)) (token s) := by
  have place : s.position = start := mid.placed
  cases rest with
  | nil =>
      obtain ⟨next, taken, held⟩ := take_nil mid
      have nothing : next.taken = [] := by simpa [held.mark] using List.length_eq_zero_iff.1 held.mark
      rw [token, taken, place]
      refine ⟨[], [], rfl, ⟨⟨held.coupled.held, held.coupled.marked, held.coupled.placed,
        held.coupled.conserved, fun _ => ⟨nothing, held.faces.upcoming⟩⟩, held.spelled,
        ⟨held.faces.holds, fun _ => rfl⟩, held.boundary⟩, rfl, rfl⟩
  | cons c rest =>
      obtain ⟨next, taken, held⟩ := take_cons mid
      rw [token, taken, place]
      exact tokenAfter_obeys held

structure Stands (keywordBoundary : Bool) (r : Remaining) (s : Scanner) : Prop where
  faces : s.Faces r.text
  placed : s.position = r.position
  boundary : s.keywordBoundary = keywordBoundary

theorem stands_ofString (keywordBoundary : Bool) (source : String) :
    Stands keywordBoundary (Remaining.ofString source) (ofString keywordBoundary source) :=
  ⟨faces_ofString keywordBoundary source, rfl, rfl⟩

theorem Stands.midway {r : Remaining} (stands : Stands keywordBoundary r s) :
    Midway keywordBoundary r.position [] r.text s.fresh := by
  have drained : s.Drained := fun finished => by
    rw [stands.faces.upcoming, stands.faces.ends finished]
  have coupled := coupled_fresh drained
  rw [stands.placed, stands.faces.upcoming] at coupled
  exact ⟨coupled, rfl, ⟨stands.faces.holds, stands.faces.ends⟩, stands.boundary⟩

theorem Midway.stands (mid : Midway keywordBoundary start word rest s) :
    Stands keywordBoundary ⟨start.advanceOver word, rest⟩ s :=
  ⟨mid.faces, mid.placed, mid.boundary⟩

theorem next_of_rules {r : Remaining} (stands : Stands keywordBoundary r s) :
    s.next.1 = (Rules.next keywordBoundary r).1 ∧
      Stands keywordBoundary (Rules.next keywordBoundary r).2 s.next.2 := by
  obtain ⟨word, rest, split, held, reported⟩ := token_obeys stands.midway
  have next : s.next = ((token s.fresh).1.mapError ScanFault.reported, (token s.fresh).2) := rfl
  have behind := held.stands
  rw [next, Rules.next]
  cases what : found keywordBoundary r.text with
  | token kind length =>
      rw [what] at reported
      obtain ⟨rfl, result⟩ := reported
      simp only [result, Remaining.drop, split, List.take_left, List.drop_left]
      exact ⟨rfl, behind⟩
  | fault cause length =>
      rw [what] at reported
      obtain ⟨rfl, result⟩ := reported
      simp only [result, Remaining.drop, split, List.take_left, List.drop_left]
      exact ⟨rfl, behind⟩

end Scanner

namespace Rules

def Remaining.after (keywordBoundary : Bool) (r : Remaining) : Nat → Remaining
  | 0 => r
  | calls + 1 => (Rules.next keywordBoundary (r.after keywordBoundary calls)).2

end Rules

namespace Scanner

open Rules

theorem stands_after {keywordBoundary : Bool} {r : Remaining} {s : Scanner}
    (stands : Stands keywordBoundary r s) (calls : Nat) :
    Stands keywordBoundary (r.after keywordBoundary calls) (s.after calls) := by
  induction calls with
  | zero => exact stands
  | succ calls ih => exact (next_of_rules ih).2

/-- The scanner says of a text what the rules say of what is left of it, now and after one call. -/
structure Follows (keywordBoundary : Bool) (s : Scanner) (r : Remaining) : Prop where
  text : s.upcoming = r.text
  position : s.position = r.position
  result : s.next.1 = (Rules.next keywordBoundary r).1
  text_next : s.next.2.upcoming = (Rules.next keywordBoundary r).2.text
  position_next : s.next.2.position = (Rules.next keywordBoundary r).2.position

/-- At every call, also behind the end of input and behind faults, the scanner gives the token or the fault
that the rules find in front of the text that is left, and leaves what they leave. -/
theorem calls_follow_rules (keywordBoundary : Bool) (source : String) (calls : Nat) :
    Follows keywordBoundary ((ofString keywordBoundary source).after calls)
      ((Remaining.ofString source).after keywordBoundary calls) := by
  have stands := stands_after (stands_ofString keywordBoundary source) calls
  obtain ⟨result, still⟩ := next_of_rules stands
  exact ⟨stands.faces.upcoming, stands.placed, result, still.faces.upcoming, still.placed⟩

end Scanner

end PredicateLang
