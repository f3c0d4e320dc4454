import PredicateLang.Text.Position
import PredicateLang.Text.Quoted

set_option autoImplicit false

namespace PredicateLang

inductive TokenKind
  | eof
  | illegal
  | whitespace
  | identifier
  | string
  | number
  | bool
  | atSign
  | add
  | sub
  | mult
  | div
  | pow
  | lparen
  | rparen
  | comma
  | dot
  | equalityOp
  | comparisonOp
  | conjunction
  | disjunction
  deriving DecidableEq

def TokenKind.text : TokenKind → String
  | .eof => "EOF"
  | .illegal => "ILLEGAL"
  | .whitespace => "WHITESPACE"
  | .identifier => "IDENTIFIER"
  | .string => "STRING"
  | .number => "NUMBER"
  | .bool => "BOOL"
  | .atSign => "AT"
  | .add => "ADD"
  | .sub => "SUB"
  | .mult => "MULT"
  | .div => "DIV"
  | .pow => "POW"
  | .lparen => "LPAREN"
  | .rparen => "RPAREN"
  | .comma => "COMMA"
  | .dot => "DOT"
  | .equalityOp => "EQUALITY_OP"
  | .comparisonOp => "COMPARISON_OP"
  | .conjunction => "CONJUNCTION"
  | .disjunction => "DISJUNCTION"

def punctuation? : Char → Option TokenKind
  | '@' => some .atSign
  | '+' => some .add
  | '-' => some .sub
  | '/' => some .div
  | '(' => some .lparen
  | ')' => some .rparen
  | ',' => some .comma
  | '.' => some .dot
  | _ => none

/-- Characters that make a longer token with the right second one: the second character, the kind of both
together and the kind of the first one alone. -/
def doubling? : Char → Option (Char × TokenKind × TokenKind)
  | '*' => some ('*', .pow, .mult)
  | '=' => some ('=', .equalityOp, .illegal)
  | '!' => some ('=', .equalityOp, .illegal)
  | '>' => some ('=', .comparisonOp, .comparisonOp)
  | '<' => some ('=', .comparisonOp, .comparisonOp)
  | _ => none

def keywordRest? : Char → Option (List Char × TokenKind)
  | 'a' => some (['n', 'd'], .conjunction)
  | 'o' => some (['r'], .disjunction)
  | 't' => some (['r', 'u', 'e'], .bool)
  | 'f' => some (['a', 'l', 's', 'e'], .bool)
  | _ => none

structure Token where
  -- The text of a string is what stands between its quotes.
  kind : TokenKind
  position : Position
  text : String
  deriving DecidableEq

namespace Token

def display (t : Token) : String :=
  match t.kind with
  | .eof => "end of input"
  | .whitespace => "whitespace"
  | .string => t.kind.text ++ " " ++ Quoted.ofString t.text
  | _ => t.kind.text ++ " `" ++ t.text ++ "`"

end Token

inductive LexCause
  | unterminatedString
  | malformedNumber
  | illegalCharacter (c : Char)
  | stream (reason : String)
  deriving DecidableEq

structure LexFault where
  position : Position
  cause : LexCause
  deriving DecidableEq

def LexCause.message : LexCause → String
  | .unterminatedString => "unterminated string literal"
  | .malformedNumber => "malformed number literal"
  | .illegalCharacter c => "illegal character " ++ Quoted.ofChar c
  | .stream reason => "source stream error: " ++ reason

def LexFault.message (fault : LexFault) : String :=
  fault.cause.message ++ " at " ++ fault.position.text

end PredicateLang
