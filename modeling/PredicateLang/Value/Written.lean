import PredicateLang.Value.Basic
import PredicateLang.Number.Written

set_option autoImplicit false

namespace PredicateLang

def Scope.text : Scope → String
  | .static => "static"
  | .global => "global"
  | .inner => "local"

def ValueKind.text : ValueKind → String
  | .int => "int"
  | .double => "double"
  | .bool => "bool"
  | .char => "char"
  | .string => "string"
  | .object => "object"
  | .array => "array"
  | .dataRef => "data-ref"
  | .attrRef => "attr-ref"

namespace Value

mutual

def display : Value → String
  | .int i => toString i.toInt
  | .double x => NumberStyle.display.write x
  | .bool b => if b then "true" else "false"
  | .char c => c.toString
  | .string s => s
  | .object fields => "\x7b" ++ ", ".intercalate (displayFields fields) ++ "\x7d"
  | .array items => "[" ++ ", ".intercalate (displayItems items) ++ "]"
  | .dataRef name scope => "<" ++ scope.text ++ " " ++ name ++ ">"
  | .attrRef name owner => "<attr " ++ name ++ " of #" ++ toString owner.toNat ++ ">"

def displayFields : List (String × Value) → List String
  | [] => []
  | (name, content) :: rest => (name ++ ": " ++ content.display) :: displayFields rest

def displayItems : List Value → List String
  | [] => []
  | item :: rest => item.display :: displayItems rest

end

end Value

end PredicateLang
