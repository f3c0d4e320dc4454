import PredicateLang.Number.Numeral

set_option autoImplicit false

namespace PredicateLang.Double

open Float.Model

def ofInt64 (i : Int64) : Float := Float.ofModel (Float.Model.ofInt64 i)

def ofUInt64 (n : UInt64) : Float := Float.ofModel (Float.Model.ofUInt64 n)

def ofInt (i : Int) : Float := Float.ofModel (pack (UnpackedFloat.ofInt .binary64 i))

def ofSingle (x : Float32) : Float :=
  Float.ofModel (pack (match x.toModel.unpack with
    | .finite sign m e _ => UnpackedFloat.round .binary64 sign m e
    | other => other))

def notANumber : Float := Float.ofModel (pack .notANumber)

def infinity : Float := Float.ofModel (pack (.infinity .positive))

/-- What is left of `a` after taking away `b` a whole number of times, with the sign of `a`. -/
def remainder (a b : Float) : Float :=
  match a.toModel.unpack, b.toModel.unpack with
  | .notANumber, _ => notANumber
  | _, .notANumber => notANumber
  | .infinity _, _ => notANumber
  | _, .zero _ => notANumber
  | .zero _, _ => a
  | _, .infinity _ => a
  | .finite sign m e _, .finite _ n f _ =>
      let least := min e f
      let rest := m * Nat.pow 2 (e - least).toNat % (n * Nat.pow 2 (f - least).toNat)
      Float.ofModel (pack (
        if rest = 0 then .zero sign else UnpackedFloat.round .binary64 sign rest least))

def ofDecimal (digits : Nat) (exponent : Int) : Float :=
  -- Far outside the range of doubles the exponent alone decides, so no large power is ever formed.
  let magnitude := exponent + (Nat.toDigits 10 digits).length
  if digits = 0 ∨ magnitude < -400 then 0.0
  else if 400 < magnitude then infinity
  else Float.ofScientific digits (exponent < 0) exponent.natAbs

def ofNumeral : Numeral → Float
  | .notANumber => notANumber
  | .infinity => infinity
  | .decimal numeral => ofDecimal numeral.digits numeral.scale

def read? (s : String) : Option Float :=
  (Numeral.signed? s).map fun (negative, numeral) =>
    if negative then -ofNumeral numeral else ofNumeral numeral

end PredicateLang.Double
