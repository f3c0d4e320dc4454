import PredicateLang.Json.Position
import PredicateLang.Token.Basic

set_option autoImplicit false

namespace PredicateLang

def TokenKind.tag : TokenKind → String
  | .eof => "Eof"
  | .illegal => "Illegal"
  | .whitespace => "Whitespace"
  | .identifier => "Identifier"
  | .string => "String"
  | .number => "Number"
  | .bool => "Bool"
  | .atSign => "At"
  | .add => "Add"
  | .sub => "Sub"
  | .mult => "Mult"
  | .div => "Div"
  | .pow => "Pow"
  | .lparen => "LParen"
  | .rparen => "RParen"
  | .comma => "Comma"
  | .dot => "Dot"
  | .equalityOp => "EqualityOp"
  | .comparisonOp => "ComparisonOp"
  | .conjunction => "Conjunction"
  | .disjunction => "Disjunction"

def Token.toJson (t : Token) : Json :=
  .record [("kind", .text t.kind.tag), ("range", t.position.toJson), ("text", .text t.text)]

end PredicateLang
