import PredicateLang.Text.CharClass

set_option autoImplicit false

namespace PredicateLang.Quoted

def escapeCode (c : Char) : List Char :=
  ['\\', 'u', '\x7b'] ++ Nat.toDigits 16 c.toNat ++ ['\x7d']

def escape (quote c : Char) : List Char :=
  -- The quote that ends the text is escaped, the other kind of quote is not.
  if c = '\x00' then ['\\', '0']
  else if c = '\t' then ['\\', 't']
  else if c = '\r' then ['\\', 'r']
  else if c = '\n' then ['\\', 'n']
  else if c = '\\' ∨ c = quote then ['\\', c]
  else if isExtending c || !isPrintable c then escapeCode c
  else [c]

def encode (quote : Char) (text : List Char) : List Char :=
  quote :: text.flatMap (escape quote) ++ [quote]

def ofChar (c : Char) : String := String.ofList (encode '\'' [c])

def ofString (s : String) : String := String.ofList (encode '"' s.toList)

end PredicateLang.Quoted
