import PredicateLang.Value.Basic
import PredicateLang.Json.Parts

set_option autoImplicit false

namespace PredicateLang

def Scope.tag : Scope → String
  | .static => "Static"
  | .global => "Global"
  | .inner => "Local"

namespace Scope

def ofTag? (tag : String) : Option Scope :=
  if tag = "Static" then some .static
  else if tag = "Global" then some .global
  else if tag = "Local" then some .inner
  else none

end Scope

namespace Value

mutual

def toJson : Value → Json
  | .int i => .tagged "Int" (.ofInt i.toInt)
  | .double x => .tagged "Double" (.number (.double x))
  | .bool b => .tagged "Bool" (.bool b)
  | .char c => .tagged "Char" (.text c.toString)
  | .string s => .tagged "String" (.text s)
  | .object fields => .tagged "Object" (.record (fieldsToJson fields))
  | .array items => .tagged "Array" (.list (itemsToJson items))
  | .dataRef name scope =>
      .tagged "DataRef" (.record [("name", .text name), ("scope", .text scope.tag)])
  | .attrRef name owner =>
      .tagged "AttrRef" (.record [("name", .text name), ("owner", .ofNat owner.toNat)])

def fieldsToJson : List (String × Value) → List (String × Json)
  | [] => []
  | (name, content) :: rest => (name, content.toJson) :: fieldsToJson rest

def itemsToJson : List Value → List Json
  | [] => []
  | item :: rest => item.toJson :: itemsToJson rest

end

def dataRefParts : List String := ["name", "scope"]

def attrRefParts : List String := ["name", "owner"]

def dataRefOf? (parts : List Json) : Option Value :=
  match parts with
  | [name, scope] => do
      some (.dataRef (← name.text?) (← (← scope.caseName?) |> Scope.ofTag?))
  | _ => none

def attrRefOf? (parts : List Json) : Option Value :=
  match parts with
  | [name, owner] => do some (.attrRef (← name.text?) (← owner.word?))
  | _ => none

def plainOf? (tag : String) (content : Json) : Option Value :=
  if tag = "Int" then content.int64?.map .int
  else if tag = "Double" then content.double?.map .double
  else if tag = "Bool" then content.bool?.map .bool
  else if tag = "Char" then content.char?.map .char
  else if tag = "String" then content.text?.map .string
  else if tag = "DataRef" then (content.parts? dataRefParts).bind dataRefOf?
  else if tag = "AttrRef" then (content.parts? attrRefParts).bind attrRefOf?
  else none

mutual

def ofJson? : Json → Option Value
  | .record [(tag, content)] => contentOf? tag content
  | _ => none

def contentOf? (tag : String) : Json → Option Value
  | .record fields =>
      if tag = "Object" then (ofFields? fields).map .record else plainOf? tag (.record fields)
  | .list items =>
      if tag = "Array" then (ofItems? items).map .array else plainOf? tag (.list items)
  | content => plainOf? tag content

def ofFields? : List (String × Json) → Option (List (String × Value))
  | [] => some []
  | (name, content) :: rest => do some ((name, ← ofJson? content) :: (← ofFields? rest))

def ofItems? : List Json → Option (List Value)
  | [] => some []
  | item :: rest => do some ((← ofJson? item) :: (← ofItems? rest))

end

end Value

end PredicateLang
