import PredicateLang.Bytecode.Program
import PredicateLang.Syntax.Tree
import PredicateLang.Text.Quoted

set_option autoImplicit false

/-!
# Compilation

A tree is compiled operand by operand, the operator last. Each part emits words and constants, in an order
that shows which came first; put together they are a program. What the sign `+` stands for is settled by
the last constants that its two sides emitted.

Names that the host does not supply emit nothing.
-/

namespace PredicateLang

inductive Emission
  | word (word : UInt32)
  | constant (v : Value)

structure EmitContext where
  -- The index of the next constant.
  nextConstant : UInt32
  -- The kind of the last constant, as far as it still counts.
  lastKind : Option ValueKind
  deriving DecidableEq

inductive CompileFault
  | invalidNumber (position : Position) (raw : String)
  | invalidProgram (fault : ProgramFault)
  deriving DecidableEq

def CompileFault.message : CompileFault → String
  | .invalidNumber position raw =>
      "invalid number literal " ++ Quoted.ofString raw ++ " at " ++ position.text
  | .invalidProgram fault => "emitted program is invalid: " ++ fault.message

def EmitContext.start : EmitContext := ⟨0, none⟩

def EmitContext.cleared (context : EmitContext) : EmitContext := { context with lastKind := none }

structure Emitted where
  items : List Emission
  outcome : Except CompileFault EmitContext

namespace Emitted

def nothing (context : EmitContext) : Emitted := ⟨[], .ok context⟩

def opcode (op : Opcode) (context : EmitContext) : Emitted := ⟨[.word op.word], .ok context⟩

def constant (op : Opcode) (v : Value) (context : EmitContext) : Emitted :=
  ⟨[.constant v, .word op.word, .word context.nextConstant],
    .ok ⟨context.nextConstant + 1, some v.kind⟩⟩

def andThen (first : Emitted) (next : EmitContext → Emitted) : Emitted :=
  match first.outcome with
  | .error fault => ⟨first.items, .error fault⟩
  | .ok context =>
      let second := next context
      ⟨first.items ++ second.items, second.outcome⟩

end Emitted

def arithmeticOpcode (op : Arithmetic) (left right : Option ValueKind) : Opcode :=
  match op with
  | .add =>
      if left = some .string ∨ right = some .string then .concat
      else if left = some .double ∨ right = some .double then .double .add
      else .int .add
  | .sub => .double .sub
  | .mul => .double .mul
  | .div => .double .div
  | .pow => .double .exp

def connectiveOpcode : Connective → Opcode
  | .and => .int .and
  | .or => .int .or

def emitPath : List String → EmitContext → Emitted
  -- The attributes of a name, each one that of the constant before it.
  | [], context => .nothing context
  | key :: rest, context =>
      (Emitted.constant .getAttr (.attrRef key (context.nextConstant - 1)) context).andThen
        (emitPath rest)

def emitIdentifier (name : Identifier) (context : EmitContext) : Emitted :=
  if name.external then
    (Emitted.constant .getStatic (.dataRef name.base .static) context).andThen (emitPath name.path)
  else .nothing context

def emitLiteral (position : Position) (kind : LiteralKind) (raw : String)
    (context : EmitContext) : Emitted :=
  match kind with
  | .string => .constant (.load .string) (.string raw) context
  | .boolean => .constant (.load .int) (.bool (raw = "true")) context
  | .number =>
      match Double.read? raw with
      | some x => .constant (.load .double) (.double x) context
      | none => ⟨[], .error (.invalidNumber position raw)⟩

mutual

def emit : Node → EmitContext → Emitted
  | .program _ items, context => emitAll items context
  | .primitive _ inner, context => emit inner context
  | .literal position kind raw, context => emitLiteral position kind raw context
  | .identifier _ name, context => emitIdentifier name context
  | .arith _ op left right, context =>
      (emit left context).andThen fun before =>
        (emit right before.cleared).andThen fun after =>
          .opcode (arithmeticOpcode op before.lastKind after.lastKind) after.cleared
  | .compare _ _ op left right, context =>
      ((emit left context).andThen (emit right)).andThen (.opcode (.compare op))
  | .logical _ op left right, context =>
      ((emit left context).andThen (emit right)).andThen (.opcode (connectiveOpcode op))

def emitAll : List Node → EmitContext → Emitted
  | [], context => .nothing context
  | node :: rest, context => (emit node context).andThen (emitAll rest)

end

def Emission.word? : Emission → Option UInt32
  | .word w => some w
  | .constant _ => none

def Emission.constant? : Emission → Option Value
  | .word _ => none
  | .constant v => some v

def assemble (items : List Emission) : Program :=
  ⟨items.filterMap Emission.word?, items.filterMap Emission.constant?⟩

def compile (validate : Bool) (root : Node) : Except CompileFault Program :=
  let emitted := emit root .start
  match emitted.outcome with
  | .error fault => .error fault
  | .ok _ =>
      let program := assemble emitted.items
      if validate then
        match program.validate with
        | .error fault => .error (.invalidProgram fault)
        | .ok () => .ok program
      else .ok program

end PredicateLang
