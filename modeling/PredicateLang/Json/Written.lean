import PredicateLang.Json.Document
import PredicateLang.Number.Written

set_option autoImplicit false

namespace PredicateLang

def JsonNumber.text : JsonNumber → String
  | .whole i => toString i
  | .double x => if x.isFinite then NumberStyle.json.write x else "null"

namespace Json

def escape (c : Char) : List Char :=
  -- Quotes, backslashes and control characters are escaped, everything else stands as it is.
  if c = '"' ∨ c = '\\' then ['\\', c]
  else if c = '\x08' then ['\\', 'b']
  else if c = '\x0c' then ['\\', 'f']
  else if c = '\n' then ['\\', 'n']
  else if c = '\r' then ['\\', 'r']
  else if c = '\t' then ['\\', 't']
  else if c.toNat < 0x20 then
    ['\\', 'u', '0', '0', Nat.digitChar (c.toNat / 16), Nat.digitChar (c.toNat % 16)]
  else [c]

def quote (s : String) : String := String.ofList ('"' :: s.toList.flatMap escape ++ ['"'])

def enclose (opening closing : String) (parts : List String) : String :=
  opening ++ ",".intercalate parts ++ closing

mutual

def compact : Json → String
  | .null => "null"
  | .bool b => if b then "true" else "false"
  | .number n => n.text
  | .text s => quote s
  | .list items => enclose "[" "]" (compactItems items)
  | .record fields => enclose "\x7b" "\x7d" (compactFields fields)

def compactItems : List Json → List String
  | [] => []
  | item :: rest => item.compact :: compactItems rest

def compactFields : List (String × Json) → List String
  | [] => []
  | (name, content) :: rest => (quote name ++ ":" ++ content.compact) :: compactFields rest

end

def newline (depth : Nat) : String := String.ofList ('\n' :: List.replicate (2 * depth) ' ')

def encloseLines (depth : Nat) (opening closing : String) (parts : List String) : String :=
  -- As `enclose`, with every part on a line of its own; no parts at all stay on one line.
  if parts.isEmpty then opening ++ closing
  else
    opening ++ newline (depth + 1) ++ ("," ++ newline (depth + 1)).intercalate parts ++
      newline depth ++ closing

mutual

def pretty (depth : Nat) : Json → String
  | .list items => encloseLines depth "[" "]" (prettyItems depth items)
  | .record fields => encloseLines depth "\x7b" "\x7d" (prettyFields depth fields)
  | .null => "null"
  | .bool b => if b then "true" else "false"
  | .number n => n.text
  | .text s => quote s

def prettyItems (depth : Nat) : List Json → List String
  | [] => []
  | item :: rest => item.pretty (depth + 1) :: prettyItems depth rest

def prettyFields (depth : Nat) : List (String × Json) → List String
  | [] => []
  | (name, content) :: rest =>
      (quote name ++ ": " ++ content.pretty (depth + 1)) :: prettyFields depth rest

end

end Json

end PredicateLang
