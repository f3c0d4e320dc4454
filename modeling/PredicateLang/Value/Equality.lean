import PredicateLang.Value.Basic

set_option autoImplicit false

namespace PredicateLang.Value

mutual

def strictEq : Value → Value → Bool
  | .int i, .int j => i == j
  | .double x, .double y => x == y
  | .bool b, .bool c => b == c
  | .char c, .char d => c == d
  | .string s, .string t => s == t
  | .object fields, .object others => strictEqFields fields others
  | .array items, .array others => strictEqItems items others
  | .dataRef name scope, .dataRef other place => name == other && scope == place
  | .attrRef name owner, .attrRef other index => name == other && owner == index
  | _, _ => false

def strictEqFields : List (String × Value) → List (String × Value) → Bool
  | [], [] => true
  | (name, content) :: rest, (other, value) :: others =>
      name == other && strictEq content value && strictEqFields rest others
  | _, _ => false

def strictEqItems : List Value → List Value → Bool
  | [], [] => true
  | item :: rest, other :: others => strictEq item other && strictEqItems rest others
  | _, _ => false

end

mutual

def reprEq : Value → Value → Bool
  | .int i, .int j => i == j
  | .int i, .bool c => i == intOfBool c
  | .bool b, .int j => intOfBool b == j
  | .bool b, .bool c => intOfBool b == intOfBool c
  | .double x, .double y => x == y
  | .char c, .char d => c == d
  | .string s, .string t => s == t
  | .object fields, .object others => reprEqFields fields others
  | .array items, .array others => reprEqItems items others
  | .dataRef name scope, .dataRef other place => name == other && scope == place
  | .attrRef name owner, .attrRef other index => name == other && owner == index
  | _, _ => false

def reprEqFields : List (String × Value) → List (String × Value) → Bool
  | [], [] => true
  | (name, content) :: rest, (other, value) :: others =>
      name == other && reprEq content value && reprEqFields rest others
  | _, _ => false

def reprEqItems : List Value → List Value → Bool
  | [], [] => true
  | item :: rest, other :: others => reprEq item other && reprEqItems rest others
  | _, _ => false

end

mutual

/-- The value with every boolean in it read as an integer. -/
def unified : Value → Value
  | .bool b => .int (intOfBool b)
  | .object fields => .object (unifiedFields fields)
  | .array items => .array (unifiedItems items)
  | .int i => .int i
  | .double x => .double x
  | .char c => .char c
  | .string s => .string s
  | .dataRef name scope => .dataRef name scope
  | .attrRef name owner => .attrRef name owner

def unifiedFields : List (String × Value) → List (String × Value)
  | [] => []
  | (name, content) :: rest => (name, content.unified) :: unifiedFields rest

def unifiedItems : List Value → List Value
  | [] => []
  | item :: rest => item.unified :: unifiedItems rest

end

end PredicateLang.Value
