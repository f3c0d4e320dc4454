import PredicateLang.Token.Basic

set_option autoImplicit false

namespace PredicateLang

inductive Misuse
  | alreadyReturned
  | nothingToReturn
  deriving DecidableEq

def Misuse.message : Misuse → String
  | .alreadyReturned => "pushback: a token is already pushed back"
  | .nothingToReturn => "pushback without a prior advance"

inductive ParseFault
  | unexpectedToken (found : Token)
  | missingOperand (operator : Token)
  | lexical (fault : LexFault)
  | misuse (cause : Misuse)
  deriving DecidableEq

def ParseFault.message : ParseFault → String
  | .unexpectedToken found => "unexpected " ++ found.display ++ " at " ++ found.position.text
  | .missingOperand operator =>
      "missing right operand for `" ++ operator.text ++ "` at " ++ operator.position.text
  | .lexical fault => fault.message
  | .misuse cause => cause.message

end PredicateLang
