import PredicateLang.Json.Reading
import PredicateLang.Value.Document

set_option autoImplicit false

namespace PredicateLang.Value

def countsAmong (names : List String) (field : List TextPart × JsonSpelling) : Bool :=
  match TextPart.text? field.1 with
  | none => true
  | some name => names.contains name

mutual

def essential : JsonSpelling → JsonSpelling
  | .record [(tag, content)] => .record [(tag, essentialContent (TextPart.text? tag) content)]
  | other => other

def essentialContent (tag : Option String) : JsonSpelling → JsonSpelling
  | .record fields =>
      if tag = some "Object" then .record (essentialFields fields)
      else if tag = some "DataRef" then .record (fields.filter (countsAmong dataRefParts))
      else if tag = some "AttrRef" then .record (fields.filter (countsAmong attrRefParts))
      else .record fields
  | .list items => if tag = some "Array" then .list (essentialItems items) else .list items
  | other => other

def essentialFields :
    List (List TextPart × JsonSpelling) → List (List TextPart × JsonSpelling)
  | [] => []
  | (name, content) :: rest => (name, essential content) :: essentialFields rest

def essentialItems : List JsonSpelling → List JsonSpelling
  | [] => []
  | item :: rest => essential item :: essentialItems rest

end

def read? (s : String) : Option Value := do
  ofJson? (← (essential (← JsonSpelling.read? s)).meaning? Json.nesting)

end PredicateLang.Value
