set_option autoImplicit false

namespace PredicateLang

inductive IntegerSize
  | bits8
  | bits16
  | bits32
  | bits64
  | bits128
  | pointer
  deriving DecidableEq

structure IntegerType where
  signed : Bool
  size : IntegerSize
  deriving DecidableEq

def IntegerSize.text : IntegerSize → String
  | .bits8 => "8"
  | .bits16 => "16"
  | .bits32 => "32"
  | .bits64 => "64"
  | .bits128 => "128"
  | .pointer => "size"

def IntegerType.text (type : IntegerType) : String :=
  (if type.signed then "i" else "u") ++ type.size.text

inductive BridgeFault
  | unit
  | absent
  | null
  | exceedsInt64 (type : IntegerType) (i : Int)
  | numberOutOfRange
  | keyNotText
  | keyNotFinite
  -- A reason that the host gives itself.
  | refused (reason : String)
  deriving DecidableEq

def BridgeFault.reason : BridgeFault → String
  | .unit => "unit"
  | .absent => "none"
  | .null => "null"
  | .exceedsInt64 type i => type.text ++ " " ++ toString i ++ " exceeds i64"
  | .numberOutOfRange => "number out of range"
  | .keyNotText => "key must be a string"
  | .keyNotFinite => "float key must be finite (got NaN or +/-inf)"
  | .refused reason => reason

def BridgeFault.message (fault : BridgeFault) : String :=
  "unsupported host type: " ++ fault.reason

end PredicateLang
