import PredicateLang.Operator

set_option autoImplicit false

namespace PredicateLang

inductive IntOperation
  | add
  | sub
  | mul
  | div
  | mod
  | and
  | or
  deriving DecidableEq

inductive DoubleOperation
  | add
  | sub
  | mul
  | div
  | mod
  | exp
  deriving DecidableEq

inductive Conversion
  | toBool
  | toChar
  | toDouble
  deriving DecidableEq

inductive LoadKind
  | int
  | double
  | string
  deriving DecidableEq

inductive Opcode
  | nop
  | getStatic
  | getAttr
  | invoke
  | load (kind : LoadKind)
  | int (operation : IntOperation)
  | convert (conversion : Conversion)
  | double (operation : DoubleOperation)
  | concat
  | compare (comparison : Comparison)
  deriving DecidableEq

namespace Opcode

def all : List Opcode :=
  [.nop, .getStatic, .getAttr, .invoke,
   .load .int, .int .add, .int .sub, .int .mul, .int .div, .int .mod, .int .and, .int .or,
   .convert .toBool, .convert .toChar, .convert .toDouble,
   .load .double, .double .add, .double .sub, .double .mul, .double .div, .double .mod,
   .double .exp,
   .load .string, .concat,
   .compare .eq, .compare .ne, .compare .gt, .compare .ge, .compare .lt, .compare .le]

def ofWord? (word : UInt32) : Option Opcode := all[word.toNat]?

def word : Opcode → UInt32
  | .nop => 0
  | .getStatic => 1
  | .getAttr => 2
  | .invoke => 3
  | .load .int => 4
  | .int .add => 5
  | .int .sub => 6
  | .int .mul => 7
  | .int .div => 8
  | .int .mod => 9
  | .int .and => 10
  | .int .or => 11
  | .convert .toBool => 12
  | .convert .toChar => 13
  | .convert .toDouble => 14
  | .load .double => 15
  | .double .add => 16
  | .double .sub => 17
  | .double .mul => 18
  | .double .div => 19
  | .double .mod => 20
  | .double .exp => 21
  | .load .string => 22
  | .concat => 23
  | .compare .eq => 24
  | .compare .ne => 25
  | .compare .gt => 26
  | .compare .ge => 27
  | .compare .lt => 28
  | .compare .le => 29

@[simp] theorem ofWord?_word (op : Opcode) : ofWord? op.word = some op := by
  cases op with
  | load kind => cases kind <;> rfl
  | int operation => cases operation <;> rfl
  | convert conversion => cases conversion <;> rfl
  | double operation => cases operation <;> rfl
  | compare comparison => cases comparison <;> rfl
  | _ => rfl

def hasOperand : Opcode → Bool
  -- Followed by the index of a constant.
  | .getStatic | .getAttr | .invoke | .load _ => true
  | _ => false

def width (op : Opcode) : Nat := if op.hasOperand then 2 else 1

def mnemonic : Opcode → String
  | .nop => "nop"
  | .getStatic => "getstatic"
  | .getAttr => "getattr"
  | .invoke => "invoke"
  | .load .int => "iload"
  | .int .add => "iadd"
  | .int .sub => "isub"
  | .int .mul => "imul"
  | .int .div => "idiv"
  | .int .mod => "imod"
  | .int .and => "iand"
  | .int .or => "ior"
  | .convert .toBool => "i2b"
  | .convert .toChar => "i2c"
  | .convert .toDouble => "i2d"
  | .load .double => "dload"
  | .double .add => "dadd"
  | .double .sub => "dsub"
  | .double .mul => "dmul"
  | .double .div => "ddiv"
  | .double .mod => "dmod"
  | .double .exp => "dexp"
  | .load .string => "sload"
  | .concat => "sconcat"
  | .compare .eq => "cmp_eq"
  | .compare .ne => "cmp_ne"
  | .compare .gt => "cmp_g"
  | .compare .ge => "cmp_ge"
  | .compare .lt => "cmp_l"
  | .compare .le => "cmp_le"

end Opcode

end PredicateLang
