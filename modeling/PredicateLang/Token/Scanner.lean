import PredicateLang.Source.Window
import PredicateLang.Token.Basic

set_option autoImplicit false

namespace PredicateLang

structure Scanner where
  window : Window
  -- Whether a keyword must not be followed by a letter.
  keywordBoundary : Bool
  -- Where the next character stands.
  position : Position
  -- What the present token has taken, latest first.
  taken : List (Position × Char)
  finished : Bool

namespace Scanner

def ofFeed (keywordBoundary : Bool) (feed : Feed) : Scanner :=
  ⟨Window.ofFeed feed, keywordBoundary, Position.start, [], false⟩

def ofString (keywordBoundary : Bool) (source : String) : Scanner :=
  ofFeed keywordBoundary (Feed.ofString source)

def left (s : Scanner) : Nat := s.window.size

/-- A scan fails over what it reads, or because there is nothing that it could give back. -/
inductive ScanFault
  | lexical (fault : LexFault)
  | floor (position : Position)
  deriving DecidableEq

def ScanFault.reported : ScanFault → LexFault
  | .lexical fault => fault
  | .floor position => ⟨position, .stream Window.floorMessage⟩

abbrev Scan := ExceptT ScanFault (StateM Scanner)

def take : Scan (Option Char) := fun s =>
  if s.finished then (.ok none, s)
  else match s.window.read with
    | (.ok (some c), window) =>
        (.ok (some c),
          { s with
            window := window
            taken := (s.position, c) :: s.taken
            position := s.position.advance c })
    | (.ok none, window) => (.ok none, { s with window := window })
    | (.error fault, window) =>
        (.error (.lexical ⟨s.position, .stream fault.message⟩), { s with window := window })

def giveBack : Scan Unit := fun s =>
  match s.taken with
  | [] => (.error (.floor s.position), s)
  | (position, _) :: taken =>
      match s.window.unread? with
      | none => (.error (.floor position), { s with taken := taken })
      | some window =>
          (.ok (), { s with window := window, taken := taken, position := position })

def giveBackMany : Nat → Scan Unit
  | 0 => pure ()
  | count + 1 => do
      giveBack
      giveBackMany count

def takenCount : Scan Nat := fun s => (.ok s.taken.length, s)

def restore (mark : Nat) : Scan Unit := do
  giveBackMany ((← takenCount) - mark)

/-- Takes a given text, or nothing at all where the input goes on differently. -/
def takeTextFrom (mark : Nat) : List Char → Scan Bool
  | [] => pure true
  | expected :: rest => do
      if (← take) = some expected then takeTextFrom mark rest
      else
        restore mark
        pure false

def takeText (expected : List Char) : Scan Bool := do
  takeTextFrom (← takenCount) expected

def peekIs (class? : Char → Bool) : Scan Bool := do
  match ← take with
  | some c =>
      giveBack
      pure (class? c)
  | none => pure false

theorem left_take_lt {s next : Scanner} {c : Char} (h : take s = (.ok (some c), next)) :
    next.left < s.left := by
  unfold take at h
  split at h
  · cases h
  · split at h
    · rename_i found
      cases h
      exact Window.size_read_lt found
    · cases h
    · cases h

def takeWhile (class? : Char → Bool) (s : Scanner) : Except ScanFault Unit × Scanner :=
  match _found : take s with
  | (.ok (some c), next) => if class? c then takeWhile class? next else giveBack next
  | (.ok none, next) => (.ok (), next)
  | (.error fault, next) => (.error fault, next)
termination_by s.left
decreasing_by exact left_take_lt _found

def takenText : Scan String := fun s =>
  (.ok (String.ofList (s.taken.reverse.map Prod.snd)), s)

def wordGoesOn : Scan Bool := fun s =>
  if s.keywordBoundary then peekIs isLetter s else (.ok false, s)

def keyword (first : Char) : Scan (Option TokenKind) := do
  -- The keyword that begins with a character already taken.
  match keywordRest? first with
  | none => pure none
  | some (rest, kind) =>
      let mark ← takenCount
      if ← takeTextFrom mark rest then
        if ← wordGoesOn then
          restore mark
          pure none
        else pure (some kind)
      else pure none

def number (start : Position) (pointSeen onlyZero : Bool) (s : Scanner) :
    Except ScanFault Unit × Scanner :=
  -- Digits and one point at most; a zero in front stands alone before the point.
  match _found : take s with
  | (.ok (some c), next) =>
      if isDigit c then
        if onlyZero && c = '0' then (.error (.lexical ⟨start, .malformedNumber⟩), next)
        else number start pointSeen false next
      else if c = '.' then
        if pointSeen then (.error (.lexical ⟨start, .malformedNumber⟩), next)
        else number start true false next
      else giveBack next
  | (.ok none, next) => (.ok (), next)
  | (.error fault, next) => (.error fault, next)
termination_by s.left
decreasing_by all_goals exact left_take_lt _found

def string (start : Position) (escaped : Bool) (text : List Char) (s : Scanner) :
    Except ScanFault String × Scanner :=
  -- A backslash raises the escape flag or lowers it, and a quote under a raised flag belongs to
  -- the text and lowers the flag; nothing else changes it.
  match _found : take s with
  | (.ok (some c), next) =>
      if c = '\n' then (.error (.lexical ⟨start, .unterminatedString⟩), next)
      else if c = '"' then
        if escaped then string start false (c :: text) next
        else (.ok (String.ofList text.reverse), next)
      else string start (if c = '\\' then !escaped else escaped) (c :: text) next
  | (.ok none, next) => (.error (.lexical ⟨start, .unterminatedString⟩), next)
  | (.error fault, next) => (.error fault, next)
termination_by s.left
decreasing_by all_goals exact left_take_lt _found

def kindAfter (c : Char) : Scan TokenKind :=
  match punctuation? c with
  | some kind => pure kind
  | none =>
      match doubling? c with
      | some (second, long, short) => do
          if ← takeText [second] then pure long else pure short
      | none =>
          if isBlank c then do
            takeWhile isBlank
            pure .whitespace
          else if isLetter c then do
            match ← keyword c with
            | some kind => pure kind
            | none =>
                takeWhile isLetter
                pure .identifier
          else pure .illegal

def tokenAfter (start : Position) (c : Char) : Scan Token := do
  if c = '"' then
    pure ⟨.string, start, ← string start false []⟩
  else if isDigit c then
    number start false (c = '0')
    pure ⟨.number, start, ← takenText⟩
  else
    let kind ← kindAfter c
    pure ⟨kind, start, ← takenText⟩

def token : Scan Token := fun s =>
  match take s with
  | (.ok (some c), next) => tokenAfter s.position c next
  | (.ok none, next) => (.ok ⟨.eof, s.position, ""⟩, { next with finished := true })
  | (.error fault, next) => (.error fault, next)

def fresh (s : Scanner) : Scanner := { s with window := s.window.forget, taken := [] }

def next (s : Scanner) : Except LexFault Token × Scanner :=
  -- The next token; after the end of input that is the end of input again.
  match token s.fresh with
  | (result, next) => (result.mapError ScanFault.reported, next)

end Scanner

end PredicateLang
