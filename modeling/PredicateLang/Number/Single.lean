import PredicateLang.Number.Numeral

set_option autoImplicit false

namespace PredicateLang.Single

open Float.Model

def notANumber : Float32 := Float32.ofModel (Float32.Model.pack .notANumber)

def infinity : Float32 := Float32.ofModel (Float32.Model.pack (.infinity .positive))

def ofDecimal (digits : Nat) (exponent : Int) : Float32 :=
  -- Far outside the range of singles the exponent alone decides.
  let magnitude := exponent + (Nat.toDigits 10 digits).length
  if digits = 0 ∨ magnitude < -60 then 0.0
  else if 60 < magnitude then infinity
  else Float32.ofScientific digits (exponent < 0) exponent.natAbs

def ofNumeral : Numeral → Float32
  | .notANumber => notANumber
  | .infinity => infinity
  | .decimal numeral => ofDecimal numeral.digits numeral.scale

def read? (s : String) : Option Float32 :=
  (Numeral.signed? s).map fun (negative, numeral) =>
    if negative then -ofNumeral numeral else ofNumeral numeral

end PredicateLang.Single
