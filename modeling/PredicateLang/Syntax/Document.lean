import PredicateLang.Json.Position
import PredicateLang.Syntax.Tree

set_option autoImplicit false

namespace PredicateLang

def LiteralKind.tag : LiteralKind → String
  | .string => "String"
  | .number => "Number"
  | .boolean => "Boolean"

def LiteralKind.ofTag? (tag : String) : Option LiteralKind :=
  [.string, .number, .boolean].find? fun kind => LiteralKind.tag kind = tag

def Arithmetic.tag : Arithmetic → String
  | .add => "Add"
  | .sub => "Sub"
  | .mul => "Mul"
  | .div => "Div"
  | .pow => "Pow"

def Arithmetic.ofTag? (tag : String) : Option Arithmetic := all.find? fun op => op.tag = tag

def Comparison.tag : Comparison → String
  | .lt => "Lt"
  | .gt => "Gt"
  | .le => "Le"
  | .ge => "Ge"
  | .eq => "Eq"
  | .ne => "Ne"

def Comparison.ofTag? (tag : String) : Option Comparison := all.find? fun op => op.tag = tag

namespace Identifier

def toJson (name : Identifier) : Json :=
  .record [("is_external", .bool name.external), ("base", .text name.base),
    ("path", .list (name.path.map .text))]

def pathOf? : Json → Option (List String)
  | .list items => items.mapM Json.text?
  | _ => none

def ofJson? (document : Json) : Option Identifier := do
  match ← document.parts? ["is_external", "base", "path"] with
  | [external, base, path] => some ⟨← external.bool?, ← base.text?, ← pathOf? path⟩
  | _ => none

end Identifier

namespace Node

def recordOf (position : Position) (tag : String) (content : Json) : Json :=
  .record [("range", position.toJson), ("kind", .tagged tag content)]

mutual

def toJson : Node → Json
  | .program position items => recordOf position "Program" (.list (allToJson items))
  | .identifier position name => recordOf position "Identifier" name.toJson
  | .primitive position inner => recordOf position "Primitive" inner.toJson
  | .literal position kind raw =>
      recordOf position "Literal" (.record [("kind", .text kind.tag), ("raw", .text raw)])
  | .compare position .equality op left right =>
      recordOf position "Equality"
        (.record [("left", left.toJson), ("right", right.toJson), ("op", .text op.tag)])
  | .compare position .ordering op left right =>
      recordOf position "Comparison"
        (.record [("left", left.toJson), ("right", right.toJson), ("op", .text op.tag)])
  | .arith position op left right =>
      recordOf position "Expression"
        (.record [("left", left.toJson), ("right", right.toJson), ("op", .text op.tag)])
  | .logical position .and left right =>
      recordOf position "Conjunction"
        (.record [("left", left.toJson), ("right", right.toJson)])
  | .logical position .or left right =>
      recordOf position "Disjunction"
        (.record [("left", left.toJson), ("right", right.toJson)])

def allToJson : List Node → List Json
  | [] => []
  | node :: rest => node.toJson :: allToJson rest

end

def literalOf? (position : Position) (content : Json) : Option Node := do
  match ← content.parts? ["kind", "raw"] with
  | [kind, raw] =>
      some (.literal position (← (← kind.caseName?) |> LiteralKind.ofTag?) (← raw.text?))
  | _ => none

def comparisonOf? (op : Json) : Option Comparison := do (← op.caseName?) |> Comparison.ofTag?

def arithmeticOf? (op : Json) : Option Arithmetic := do (← op.caseName?) |> Arithmetic.ofTag?

mutual

def ofJson? (document : Json) : Option Node :=
  match _parted : document.parts? ["range", "kind"] with
  | some [range, kind] =>
      (Position.ofJson? range).bind fun position => ofKind? position kind
  | _ => none
termination_by (sizeOf document, 0)
decreasing_by exact .left _ _ (Json.sizeOf_lt_of_parts? _parted (by simp))

def ofKind? (position : Position) : Json → Option Node
  | .record [(tag, content)] => ofContent? position tag content
  | _ => none
termination_by kind => (sizeOf kind, 0)

def ofContent? (position : Position) (tag : String) (content : Json) : Option Node :=
  if tag = "Program" then
    match content with
    | .list items => (ofJsonList? items).map (.program position)
    | _ => none
  else if tag = "Identifier" then (Identifier.ofJson? content).map (.identifier position)
  else if tag = "Primitive" then (ofJson? content).map (.primitive position)
  else if tag = "Literal" then literalOf? position content
  else if tag = "Equality" then compareOf? position .equality content
  else if tag = "Comparison" then compareOf? position .ordering content
  else if tag = "Expression" then
    match _parted : content.parts? ["left", "right", "op"] with
    | some [left, right, op] => do
        some (.arith position (← arithmeticOf? op) (← ofJson? left) (← ofJson? right))
    | _ => none
  else if tag = "Conjunction" then logicalOf? position .and content
  else if tag = "Disjunction" then logicalOf? position .or content
  else none
termination_by (sizeOf content, 2)
decreasing_by
  all_goals first
    | exact .left _ _ (Json.sizeOf_lt_of_parts? _parted (by simp))
    | decreasing_tactic

def compareOf? (position : Position) (relation : Relation) (content : Json) : Option Node :=
  match _parted : content.parts? ["left", "right", "op"] with
  | some [left, right, op] => do
      some (.compare position relation (← comparisonOf? op) (← ofJson? left) (← ofJson? right))
  | _ => none
termination_by (sizeOf content, 1)
decreasing_by all_goals exact .left _ _ (Json.sizeOf_lt_of_parts? _parted (by simp))

def logicalOf? (position : Position) (op : Connective) (content : Json) : Option Node :=
  match _parted : content.parts? ["left", "right"] with
  | some [left, right] => do some (.logical position op (← ofJson? left) (← ofJson? right))
  | _ => none
termination_by (sizeOf content, 1)
decreasing_by all_goals exact .left _ _ (Json.sizeOf_lt_of_parts? _parted (by simp))

def ofJsonList? : List Json → Option (List Node)
  | [] => some []
  | item :: rest => do some ((← ofJson? item) :: (← ofJsonList? rest))
termination_by items => (sizeOf items, 0)

end

end Node

end PredicateLang
