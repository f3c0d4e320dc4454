set_option autoImplicit false

namespace PredicateLang

inductive Arithmetic
  | add
  | sub
  | mul
  | div
  | pow
  deriving DecidableEq

inductive Comparison
  | lt
  | gt
  | le
  | ge
  | eq
  | ne
  deriving DecidableEq

inductive Connective
  | and
  | or
  deriving DecidableEq

namespace Arithmetic

def all : List Arithmetic := [.add, .sub, .mul, .div, .pow]

def symbol : Arithmetic → String
  | .add => "+"
  | .sub => "-"
  | .mul => "*"
  | .div => "/"
  | .pow => "**"

end Arithmetic

namespace Comparison

def all : List Comparison := [.lt, .gt, .le, .ge, .eq, .ne]

def symbol : Comparison → String
  | .lt => "<"
  | .gt => ">"
  | .le => "<="
  | .ge => ">="
  | .eq => "=="
  | .ne => "!="

def ofSymbol? (symbol : String) : Option Comparison :=
  all.find? fun comparison => comparison.symbol = symbol

def isEquality : Comparison → Bool
  | .eq | .ne => true
  | _ => false

end Comparison

def Connective.word : Connective → String
  | .and => "and"
  | .or => "or"

end PredicateLang
