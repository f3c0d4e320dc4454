import PredicateLang.Operator
import PredicateLang.Text.Position

set_option autoImplicit false

namespace PredicateLang

inductive LiteralKind
  | string
  | number
  | boolean
  deriving DecidableEq

/-- A name and the attributes that follow it. External names are the ones the host supplies. -/
structure Identifier where
  external : Bool
  base : String
  path : List String
  deriving DecidableEq

inductive Relation
  | equality
  | ordering
  deriving DecidableEq

inductive Node
  | program (position : Position) (items : List Node)
  | identifier (position : Position) (name : Identifier)
  | primitive (position : Position) (inner : Node)
  | literal (position : Position) (kind : LiteralKind) (raw : String)
  | compare (position : Position) (relation : Relation) (op : Comparison) (left right : Node)
  | arith (position : Position) (op : Arithmetic) (left right : Node)
  | logical (position : Position) (op : Connective) (left right : Node)
  deriving Inhabited

namespace Node

def position : Node → Position
  | .program position _ => position
  | .identifier position _ => position
  | .primitive position _ => position
  | .literal position _ _ => position
  | .compare position _ _ _ _ => position
  | .arith position _ _ _ => position
  | .logical position _ _ _ => position

def emptyProgram : Node := .program Position.start []

def asPrimitive (inner : Node) : Node := .primitive inner.position inner

def comparison (position : Position) (op : Comparison) (left right : Node) : Node :=
  .compare position (if op.isEquality then .equality else .ordering) op left right

def children : Node → List Node
  | .program _ items => items
  | .identifier _ _ => []
  | .primitive _ inner => [inner]
  | .literal _ _ _ => []
  | .compare _ _ _ left right => [left, right]
  | .arith _ _ left right => [left, right]
  | .logical _ _ left right => [left, right]

def name : Node → String
  | .program _ _ => "Program"
  | .identifier _ _ => "Identifier"
  | .primitive _ _ => "Primitive"
  | .literal _ _ _ => "Literal"
  | .compare _ .equality _ _ _ => "Equality"
  | .compare _ .ordering _ _ _ => "Comparison"
  | .arith _ _ _ _ => "Expression"
  | .logical _ .and _ _ => "Conjunction"
  | .logical _ .or _ _ => "Disjunction"

mutual

def count : Node → Nat
  | .program _ items => 1 + countAll items
  | .identifier _ _ => 1
  | .primitive _ inner => 1 + inner.count
  | .literal _ _ _ => 1
  | .compare _ _ _ left right => 1 + (left.count + right.count)
  | .arith _ _ left right => 1 + (left.count + right.count)
  | .logical _ _ left right => 1 + (left.count + right.count)

def countAll : List Node → Nat
  | [] => 0
  | node :: rest => node.count + countAll rest

end

mutual

def bare : Node → Node
  | .program _ items => .program Position.start (bareAll items)
  | .identifier _ name => .identifier Position.start name
  | .primitive _ inner => .primitive Position.start inner.bare
  | .literal _ kind raw => .literal Position.start kind raw
  | .compare _ relation op left right =>
      .compare Position.start relation op left.bare right.bare
  | .arith _ op left right => .arith Position.start op left.bare right.bare
  | .logical _ op left right => .logical Position.start op left.bare right.bare

def bareAll : List Node → List Node
  | [] => []
  | node :: rest => node.bare :: bareAll rest

end

def Identifier.display (name : Identifier) : String :=
  (if name.external then "@" else "") ++ ".".intercalate (name.base :: name.path)

def displayBinary (operator left right : String) : String :=
  "(" ++ operator ++ " " ++ left ++ " " ++ right ++ ")"

def displayLiteral (kind : LiteralKind) (raw : String) : String :=
  match kind with
  | .string => "\"" ++ raw ++ "\""
  | .number => raw
  | .boolean => raw

mutual

def display : Node → String
  | .program _ items => "\n".intercalate (displayAll items)
  | .identifier _ name => Identifier.display name
  | .primitive _ inner => inner.display
  | .literal _ kind raw => displayLiteral kind raw
  | .compare _ _ op left right => displayBinary op.symbol left.display right.display
  | .arith _ op left right => displayBinary op.symbol left.display right.display
  | .logical _ op left right => displayBinary op.word left.display right.display

def displayAll : List Node → List String
  | [] => []
  | node :: rest => node.display :: displayAll rest

end

end Node

end PredicateLang
