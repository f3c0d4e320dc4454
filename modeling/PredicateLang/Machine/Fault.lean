import PredicateLang.Bytecode.Opcode
import PredicateLang.Host.Fault
import PredicateLang.Value.Written

set_option autoImplicit false

namespace PredicateLang

inductive RuntimeCause
  | typeMismatch (opcode : Opcode) (found : ValueKind)
  | unresolvedBinding (name : String)
  | attributeNotFound (name : String)
  | indexOutOfRange (index size : Nat)
  | divisionByZero (opcode : Opcode)
  | unsupportedHostType (name : String) (fault : BridgeFault)
  | unimplementedOpcode (opcode : Opcode)
  | invalidOpcode (word : UInt32)
  | stackUnderflow (opcode : Opcode)
  | stackOverflow (limit : Nat)
  -- The index is missing where the program ends behind its operation.
  | constantOutOfRange (index : Option UInt32)
  deriving DecidableEq

structure RuntimeFault where
  pc : Nat
  cause : RuntimeCause
  deriving DecidableEq

def RuntimeFault.message (fault : RuntimeFault) : String :=
  let place := s!"at pc {fault.pc}"
  match fault.cause with
  | .typeMismatch opcode found => s!"{opcode.mnemonic} cannot operate on {found.text} {place}"
  | .unresolvedBinding name => s!"unresolved binding `{name}` {place}"
  | .attributeNotFound name => s!"attribute `{name}` not found {place}"
  | .indexOutOfRange index size => s!"index {index} out of range (len {size}) {place}"
  | .divisionByZero opcode => s!"division by zero in {opcode.mnemonic} {place}"
  | .unsupportedHostType name source =>
      s!"binding `{name}` produced an unsupported value {place}: {source.message}"
  | .unimplementedOpcode opcode => s!"{opcode.mnemonic} is not implemented (pc {fault.pc})"
  | .invalidOpcode word => s!"invalid opcode {word.toNat} {place}"
  | .stackUnderflow opcode => s!"stack underflow in {opcode.mnemonic} {place}"
  | .stackOverflow limit => s!"stack overflow (limit {limit}) {place}"
  | .constantOutOfRange _ => s!"missing or out-of-range constant operand {place}"

end PredicateLang
