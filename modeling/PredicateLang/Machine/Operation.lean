import PredicateLang.Bytecode.Program
import PredicateLang.Host.Bindings
import PredicateLang.Machine.Fault
import PredicateLang.Number.Count
import PredicateLang.Value.Comparison

set_option autoImplicit false

/-!
# Operations of the machine

What each operation does to the stack of operands, whose first item is its top. Two operands are taken
right before left and checked left before right. Integers wrap around; doubles follow their standard,
except that nothing is divided by zero.
-/

namespace PredicateLang

abbrev Stack := List Value

namespace Stack

def push (limit : Nat) (v : Value) (stack : Stack) : Except RuntimeCause Stack :=
  if limit ≤ stack.length then .error (.stackOverflow limit) else .ok (v :: stack)

def pop (opcode : Opcode) : Stack → Except RuntimeCause (Value × Stack)
  | [] => .error (.stackUnderflow opcode)
  | v :: stack => .ok (v, stack)

def popTwo (opcode : Opcode) : Stack → Except RuntimeCause (Value × Value × Stack)
  | right :: left :: stack => .ok (left, right, stack)
  | _ => .error (.stackUnderflow opcode)

end Stack

def intOperand (opcode : Opcode) (v : Value) : Except RuntimeCause Int64 :=
  match v.asInt? with
  | some i => .ok i
  | none => .error (.typeMismatch opcode v.kind)

def doubleOperand (opcode : Opcode) (v : Value) : Except RuntimeCause Float :=
  match v.asDouble? with
  | some x => .ok x
  | none => .error (.typeMismatch opcode v.kind)

def IntOperation.divides : IntOperation → Bool
  | .div | .mod => true
  | _ => false

def IntOperation.apply : IntOperation → Int64 → Int64 → Int64
  | .add, i, j => i + j
  | .sub, i, j => i - j
  | .mul, i, j => i * j
  | .div, i, j => i / j
  | .mod, i, j => i % j
  | .and, i, j => i &&& j
  | .or, i, j => i ||| j

def DoubleOperation.divides : DoubleOperation → Bool
  | .div | .mod => true
  | _ => false

def DoubleOperation.apply : DoubleOperation → Float → Float → Float
  | .add, x, y => x + y
  | .sub, x, y => x - y
  | .mul, x, y => x * y
  | .div, x, y => x / y
  | .mod, x, y => Double.remainder x y
  | .exp, x, y => Float.pow x y

def intResult (operation : IntOperation) (left right : Value) : Except RuntimeCause Value := do
  let i ← intOperand (.int operation) left
  let j ← intOperand (.int operation) right
  if operation.divides && j == 0 then throw (.divisionByZero (.int operation))
  return .int (operation.apply i j)

def doubleResult (operation : DoubleOperation) (left right : Value) :
    Except RuntimeCause Value := do
  let x ← doubleOperand (.double operation) left
  let y ← doubleOperand (.double operation) right
  if operation.divides && y == 0 then throw (.divisionByZero (.double operation))
  return .double (operation.apply x y)

def compareResult (comparison : Comparison) (left right : Value) : Value :=
  .int (Value.intOfBool (comparison.holds left right))

def Conversion.apply (i : Int64) : Conversion → Value
  -- Only the low byte of an integer counts as a character.
  | .toBool => .bool (i != 0)
  | .toChar => .char (Char.ofNat (i.toUInt64.toNat % 256))
  | .toDouble => .double (Double.ofInt64 i)

-- Read in place of an operand that is not there.
def undefinedText : Value := .string "undefined"

def popText : Stack → Value × Stack
  | [] => (undefinedText, [])
  | v :: stack => (v, stack)

def concatResult (left right : Value) : Except RuntimeCause Value :=
  match left, right with
  | .string s, .string t => .ok (.string (s ++ t))
  | .string _, other => .error (.typeMismatch .concat other.kind)
  | other, _ => .error (.typeMismatch .concat other.kind)

def attribute? (target : Value) (name : String) : Except RuntimeCause Value :=
  match target with
  | .array items =>
      match Count.read? name with
      | none => .error (.attributeNotFound name)
      | some index =>
          match items[index]? with
          | none => .error (.indexOutOfRange index items.length)
          | some v => .ok v
  | .object fields =>
      match Fields.get? name fields with
      | none => .error (.attributeNotFound name)
      | some v => .ok v
  | other => .error (.typeMismatch .getAttr other.kind)

def attributeOf (constant : Value) (limit : Nat) (stack : Stack) : Except RuntimeCause Stack :=
  match constant with
  | .attrRef name _ => do
      let (target, rest) ← stack.pop .getAttr
      Stack.push limit (← attribute? target name) rest
  | other => .error (.typeMismatch .getAttr other.kind)

def loadOf (kind : LoadKind) (constant : Value) (limit : Nat) (stack : Stack) :
    Except RuntimeCause Stack :=
  if kind.accepts constant.kind then stack.push limit constant
  else .error (.typeMismatch (.load kind) constant.kind)

def Opcode.perform (opcode : Opcode) (constant : Option Value) (limit : Nat) (stack : Stack) :
    Except RuntimeCause Stack :=
  match opcode, constant with
  | .nop, _ => .ok stack
  | .invoke, _ => .error (.unimplementedOpcode .invoke)
  | .getAttr, some c => attributeOf c limit stack
  | .load kind, some c => loadOf kind c limit stack
  | .getAttr, none | .load _, none | .getStatic, _ => .error (.constantOutOfRange none)
  | .int operation, _ => do
      let (left, right, rest) ← stack.popTwo (.int operation)
      Stack.push limit (← intResult operation left right) rest
  | .double operation, _ => do
      let (left, right, rest) ← stack.popTwo (.double operation)
      Stack.push limit (← doubleResult operation left right) rest
  | .convert conversion, _ => do
      let (v, rest) ← stack.pop (.convert conversion)
      Stack.push limit (conversion.apply (← intOperand (.convert conversion) v)) rest
  | .concat, _ => do
      let (right, under) := popText stack
      let (left, rest) := popText under
      Stack.push limit (← concatResult left right) rest
  | .compare comparison, _ => do
      let (left, right, rest) ← stack.popTwo (.compare comparison)
      Stack.push limit (compareResult comparison left right) rest

def fetchBinding {ω : Type} (bindings : Bindings ω) (constant : Value) (world : ω) :
    Except RuntimeCause Value × ω :=
  -- The value that the host gives for a constant, if the constant names a binding.
  match constant with
  | .dataRef name .static =>
      match bindings.resolve name world with
      | none => (.error (.unresolvedBinding name), world)
      | some (.error fault, after) => (.error (.unsupportedHostType name fault), after)
      | some (.ok v, after) => (.ok v, after)
  | .dataRef name _ => (.error (.unresolvedBinding name), world)
  | other => (.error (.typeMismatch .getStatic other.kind), world)

end PredicateLang
