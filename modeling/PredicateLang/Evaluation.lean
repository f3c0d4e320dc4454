import PredicateLang.Bytecode.Opcode
import PredicateLang.Host.Bindings
import PredicateLang.Machine.Fault
import PredicateLang.Number.Count
import PredicateLang.Syntax.Tree
import PredicateLang.Value.Equality

set_option autoImplicit false

namespace PredicateLang

inductive Term
  | constant (v : Value)
  -- A name that the host supplies, and attributes of its value.
  | external (name : String) (path : List String)
  | compare (op : Comparison) (left right : Term)
  | arith (op : Arithmetic) (left right : Term)
  | logical (op : Connective) (left right : Term)

/-- The values that a host supplies which always gives the same ones. -/
abbrev Supply := String → Option (Except BridgeFault Value)

/-- Every producer gives what the supply says and leaves the world as it is. -/
def Bindings.Supplies {ω : Type} (b : Bindings ω) (supply : Supply) : Prop :=
  ∀ name world, b.resolve name world = (supply name).map fun result => (result, world)

namespace Term

def literalOf? (kind : LiteralKind) (raw : String) : Option Value :=
  match kind with
  | .string => some (.string raw)
  | .boolean => some (.bool (raw = "true"))
  | .number => (Double.read? raw).map .double

/-- The term of an expression: nothing where a name is not external, a number is none, or a program stands
inside. -/
def ofNode? : Node → Option Term
  | .program _ _ => none
  | .primitive _ inner => ofNode? inner
  | .literal _ kind raw => (literalOf? kind raw).map .constant
  | .identifier _ name => if name.external then some (.external name.base name.path) else none
  | .compare _ _ op left right => do some (.compare op (← ofNode? left) (← ofNode? right))
  | .arith _ op left right => do some (.arith op (← ofNode? left) (← ofNode? right))
  | .logical _ op left right => do some (.logical op (← ofNode? left) (← ofNode? right))

/-- The kind that a sum can tell of its operand: that of the last leaf, unless it stands inside of an
arithmetic expression. -/
def kind? : Term → Option ValueKind
  | .constant v => some v.kind
  | .external _ path => some (if path.isEmpty then .dataRef else .attrRef)
  | .compare _ _ right => right.kind?
  | .arith _ _ _ => none
  | .logical _ _ right => right.kind?

def supplied (supply : Supply) (name : String) : Except RuntimeCause Value :=
  match supply name with
  | none => .error (.unresolvedBinding name)
  | some (.error fault) => .error (.unsupportedHostType name fault)
  | some (.ok v) => .ok v

-- Booleans count as zero and one.
def integer? : Value → Option Int64
  | .int i => some i
  | .bool true => some 1
  | .bool false => some 0
  | _ => none

def double? : Value → Option Float
  | .double x => some x
  | _ => none

def text? : Value → Option String
  | .string s => some s
  | _ => none

/-- What comes of two operands that have to be of one sort. The left one is looked at first. -/
def combined {α : Type} (opcode : Opcode) (sort? : Value → Option α)
    (outcome : α → α → Except RuntimeCause Value) (left right : Value) : Except RuntimeCause Value :=
  match sort? left, sort? right with
  | some x, some y => outcome x y
  | some _, none => .error (.typeMismatch opcode right.kind)
  | none, _ => .error (.typeMismatch opcode left.kind)

def concatenation : Value → Value → Except RuntimeCause Value :=
  combined .concat text? fun s t => .ok (.string (s ++ t))

def doubleSum : Value → Value → Except RuntimeCause Value :=
  combined (.double .add) double? fun x y => .ok (.double (x + y))

-- Beyond the 64-bit integers the sum comes round to their other end.
def integerSum : Value → Value → Except RuntimeCause Value :=
  combined (.int .add) integer? fun i j => .ok (.int (Int64.ofInt (i.toInt + j.toInt)))

def sum (kinds : List (Option ValueKind)) : Value → Value → Except RuntimeCause Value :=
  -- A sum is a concatenation if a side is known to be a text, else an addition of doubles if one is
  -- known to be a double, else of integers.
  if some .string ∈ kinds then concatenation
  else if some .double ∈ kinds then doubleSum
  else integerSum

def arithmetic (op : Arithmetic) (kinds : List (Option ValueKind)) :
    Value → Value → Except RuntimeCause Value :=
  match op with
  | .add => sum kinds
  | .sub => combined (.double .sub) double? fun x y => .ok (.double (x - y))
  | .mul => combined (.double .mul) double? fun x y => .ok (.double (x * y))
  | .div => combined (.double .div) double? fun x y =>
      if y == 0 then .error (.divisionByZero (.double .div)) else .ok (.double (x / y))
  | .pow => combined (.double .exp) double? fun x y => .ok (.double (x.pow y))

def connective (op : Connective) : Value → Value → Except RuntimeCause Value :=
  -- Neither side is skipped, and all bits count.
  match op with
  | .and => combined (.int .and) integer? fun i j => .ok (.int (i &&& j))
  | .or => combined (.int .or) integer? fun i j => .ok (.int (i ||| j))

def place? : Value → Option Float
  -- Where a value stands on the scale that integers, booleans, characters and doubles share.
  | .int i => some (Double.ofInt i.toInt)
  | .bool b => some (if b then 1 else 0)
  | .char c => some (Double.ofInt c.toNat)
  | .double x => some x
  | _ => none

def placed (order : Float → Float → Prop) [DecidableRel order] (left right : Value) : Bool :=
  match place? left, place? right with
  | some x, some y => order x y
  | _, _ => false

def related (op : Comparison) (left right : Value) : Bool :=
  match op with
  | .eq => left.unified.strictEq right.unified
  | .ne => !left.unified.strictEq right.unified
  | .lt => placed (· < ·) left right
  | .gt => placed (· > ·) left right
  | .le => placed (· ≤ ·) left right
  | .ge => placed (· ≥ ·) left right

def comparison (op : Comparison) (left right : Value) : Value :=
  .int (if related op left right then 1 else 0)

def attributeOf (v : Value) (name : String) : Except RuntimeCause Value :=
  match v with
  | .object fields =>
      match fields.find? fun field => field.1 = name with
      | some field => .ok field.2
      | none => .error (.attributeNotFound name)
  | .array items =>
      match Count.read? name with
      | some index =>
          if inside : index < items.length then .ok items[index]
          else .error (.indexOutOfRange index items.length)
      | none => .error (.attributeNotFound name)
  | other => .error (.typeMismatch .getAttr other.kind)

def evaluate (supply : Supply) : Term → Except RuntimeCause Value
  | .constant v => .ok v
  | .external name path => do path.foldlM attributeOf (← supplied supply name)
  | .compare op left right => do
      let x ← left.evaluate supply
      let y ← right.evaluate supply
      return comparison op x y
  | .arith op left right => do
      let x ← left.evaluate supply
      let y ← right.evaluate supply
      arithmetic op [left.kind?, right.kind?] x y
  | .logical op left right => do
      let x ← left.evaluate supply
      let y ← right.evaluate supply
      connective op x y

end Term

end PredicateLang
