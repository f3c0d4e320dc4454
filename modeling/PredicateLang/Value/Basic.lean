import PredicateLang.Fields
import PredicateLang.Number.Double

set_option autoImplicit false

namespace PredicateLang

inductive Scope
  -- Where a reference is looked up. Only the host's table can be.
  | static
  | global
  | inner
  deriving DecidableEq

/-- A record keeps its fields in ascending order of their names. -/
inductive Value
  | int (i : Int64)
  | double (x : Float)
  | bool (b : Bool)
  | char (c : Char)
  | string (s : String)
  | object (fields : List (String × Value))
  | array (items : List Value)
  | dataRef (name : String) (scope : Scope)
  | attrRef (name : String) (owner : UInt32)
  deriving Inhabited

inductive ValueKind
  | int
  | double
  | bool
  | char
  | string
  | object
  | array
  | dataRef
  | attrRef
  deriving DecidableEq

namespace Value

def kind : Value → ValueKind
  | .int _ => .int
  | .double _ => .double
  | .bool _ => .bool
  | .char _ => .char
  | .string _ => .string
  | .object _ => .object
  | .array _ => .array
  | .dataRef _ _ => .dataRef
  | .attrRef _ _ => .attrRef

-- A record from fields in any order; of two with one name the later stays.
def record (fields : List (String × Value)) : Value := .object (Fields.ofList fields)

def intOfBool (b : Bool) : Int64 := if b then 1 else 0

-- Booleans count as the integers zero and one.
def asInt? : Value → Option Int64
  | .int i => some i
  | .bool b => some (intOfBool b)
  | _ => none

-- Integers are not widened.
def asDouble? : Value → Option Float
  | .double x => some x
  | _ => none

def asOrdered? : Value → Option Float
  -- What a value is ordered by: integers, doubles, booleans and characters share one scale.
  | .int i => some (Double.ofInt64 i)
  | .double x => some x
  | .bool b => some (Double.ofInt64 (intOfBool b))
  | .char c => some (Double.ofUInt64 c.val.toUInt64)
  | _ => none

def asString? : Value → Option String
  | .string s => some s
  | _ => none

def isReference : Value → Bool
  | .dataRef _ _ => true
  | .attrRef _ _ => true
  | _ => false

end Value

end PredicateLang
