import PredicateLang.Text.CharClass
import PredicateLang.Token.Basic

set_option autoImplicit false

/-!
# Rules of tokens

What the next token is, said about the text that is left as a whole. The longest text wins: an operator
of two characters over its first one, a run of letters, digits or blanks over any part of it. Faults say
how much of the text they use up.
-/

namespace PredicateLang.Rules

/-- What stands at the beginning of a text, and how many characters it takes. -/
inductive Found
  | token (kind : TokenKind) (length : Nat)
  | fault (cause : LexCause) (length : Nat)
  deriving DecidableEq

def keywords : List (List Char × TokenKind) :=
  [(['a', 'n', 'd'], .conjunction), (['o', 'r'], .disjunction),
   (['t', 'r', 'u', 'e'], .bool), (['f', 'a', 'l', 's', 'e'], .bool)]

def pairs : List (List Char × TokenKind) :=
  [(['*', '*'], .pow), (['=', '='], .equalityOp), (['!', '='], .equalityOp),
   (['>', '='], .comparisonOp), (['<', '='], .comparisonOp)]

def singles : List (List Char × TokenKind) :=
  [(['@'], .atSign), (['+'], .add), (['-'], .sub), (['*'], .mult), (['/'], .div),
   (['('], .lparen), ([')'], .rparen), ([','], .comma), (['.'], .dot),
   (['>'], .comparisonOp), (['<'], .comparisonOp)]

def begins? (words : List (List Char × TokenKind)) (text : List Char) : Option Found :=
  (words.find? fun word => word.1.isPrefixOf text).map fun word => .token word.2 word.1.length

def word (keywordBoundary : Bool) (text : List Char) : Found :=
  -- A keyword, or else the whole run of letters; with the boundary only the whole run is tried.
  let letters := text.takeWhile isLetter
  let front := if keywordBoundary then keywords.filter (·.1.length = letters.length) else keywords
  (begins? front text).getD (.token .identifier letters.length)

/-- Too much for a number: a second point, or a second zero right behind a leading one. -/
def malformed (digits : List Char) : Bool :=
  2 ≤ digits.count '.' || digits.take 2 = ['0', '0']

def number (text : List Char) : Found :=
  let run := text.takeWhile fun c => isDigit c || c = '.'
  match (List.range (run.length + 1)).find? fun n => malformed (run.take n) with
  | some n => .fault .malformedNumber n
  | none => .token .number run.length

def escaped (text : List Char) : Bool :=
  -- Whether the next quote belongs to the text: backslashes raise the flag and lower it, a quote
  -- under the flag lowers it, and nothing else changes it.
  text.foldl (fun flag c => if c = '\\' then !flag else flag && c != '"') false

def closes (inside : List Char) (c : Char) : Bool := c = '\n' || (c = '"' && !escaped inside)

/-- The place of the newline or the quote that ends a string, counted from its opening quote. -/
def closing? (text : List Char) : Option Nat :=
  (List.range text.length).find? fun n => closes (text.take n) (text.getD n '\n')

def string (text : List Char) : Found :=
  match closing? text with
  | none => .fault .unterminatedString (text.length + 1)
  | some n =>
      if text.getD n '\n' = '\n' then .fault .unterminatedString (n + 2)
      else .token .string (n + 2)

def found (keywordBoundary : Bool) : List Char → Found
  | [] => .token .eof 0
  | c :: rest =>
      if c = '"' then string rest
      else if isDigit c then number (c :: rest)
      else if isBlank c then .token .whitespace ((c :: rest).takeWhile isBlank).length
      else if isLetter c then word keywordBoundary (c :: rest)
      else ((begins? pairs (c :: rest)).or (begins? singles (c :: rest))).getD (.token .illegal 1)

structure Remaining where
  position : Position
  text : List Char
  deriving DecidableEq

def Remaining.ofString (source : String) : Remaining := ⟨Position.start, source.toList⟩

def Remaining.drop (r : Remaining) (length : Nat) : Remaining :=
  ⟨r.position.advanceOver (r.text.take length), r.text.drop length⟩

def lexeme (kind : TokenKind) (taken : List Char) : String :=
  -- The text of a token: a string has lost its quotes.
  String.ofList (if kind = .string then (taken.drop 1).dropLast else taken)

def next (keywordBoundary : Bool) (r : Remaining) : Except LexFault Token × Remaining :=
  match found keywordBoundary r.text with
  | .token kind length =>
      (.ok ⟨kind, r.position, lexeme kind (r.text.take length)⟩, r.drop length)
  | .fault cause length => (.error ⟨r.position, cause⟩, r.drop length)

end PredicateLang.Rules
