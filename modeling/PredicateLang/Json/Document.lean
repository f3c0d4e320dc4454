set_option autoImplicit false

namespace PredicateLang

/-- Whole numbers of 64 bits, signed or unsigned, stay whole; all other numbers are doubles. -/
inductive JsonNumber
  | whole (i : Int)
  | double (x : Float)
  deriving DecidableEq

inductive Json
  | null
  | bool (b : Bool)
  | number (n : JsonNumber)
  | text (s : String)
  | list (items : List Json)
  | record (fields : List (String × Json))
  deriving Inhabited

namespace Json

def ofInt (i : Int) : Json := .number (.whole i)

def ofNat (n : Nat) : Json := .number (.whole n)

def tagged (tag : String) (content : Json) : Json := .record [(tag, content)]

def field? (name : String) : Json → Option Json
  -- The content under a name; of two with one name the later counts.
  | .record fields => (fields.reverse.find? fun field => field.1 = name).map Prod.snd
  | _ => none

end Json

end PredicateLang
