import PredicateLang.Json.Document
import PredicateLang.Number.Double

set_option autoImplicit false

namespace PredicateLang

inductive JsonNumeral
  | whole (negative : Bool) (digits : List Char)
  | real (negative : Bool) (numeral : DecimalNumeral)

namespace JsonNumeral

def unsigned? (negative : Bool) (text : List Char) : Option JsonNumeral :=
  -- A zero alone or digits without a leading zero; fraction and exponent may be missing.
  let digits := text.takeWhile isDigit
  if digits.isEmpty || (digits.head? = some '0' && 1 < digits.length) then none
  else match text.dropWhile isDigit with
    | [] => some (.whole negative digits)
    | '.' :: rest =>
        let fraction := rest.takeWhile isDigit
        if fraction.isEmpty then none
        else (exponentOf? (rest.dropWhile isDigit)).map fun exponent =>
          .real negative ⟨digits, fraction, exponent⟩
    | rest => (exponentOf? rest).map fun exponent => .real negative ⟨digits, [], exponent⟩

def ofText? : List Char → Option JsonNumeral
  | '-' :: text => unsigned? true text
  | text => unsigned? false text

/-- Appends digits to a number as long as it stays below `2 ^ 64`; gives the number and how many digits
were taken. -/
def takeFitting (n : Nat) : List Char → Nat × Nat
  | [] => (n, 0)
  | c :: rest =>
      let longer := 10 * n + (c.toNat - '0'.toNat)
      if longer < UInt64.size then
        let (m, taken) := takeFitting longer rest
        (m, taken + 1)
      else (n, 0)

/-- A power of ten is applied in one multiplication or division. A smaller one than the doubles hold is
applied in several divisions, a larger one is refused. -/
def scale? (x : Float) (exponent : Int) : Option Float :=
  if exponent < -308 then
    if x == 0.0 then some x else scale? (x / Double.ofDecimal 1 308) (exponent + 308)
  else if exponent < 0 then some (x / Double.ofDecimal 1 (-exponent))
  else if exponent ≤ 308 then
    let y := x * Double.ofDecimal 1 exponent
    if y.isInf then none else some y
  else if x == 0.0 then some x
  else none
termination_by (-exponent).toNat
decreasing_by omega

def double? (negative : Bool) (numeral : DecimalNumeral) : Option JsonNumber :=
  -- Digits beyond the first 64 bits only count for the size of the number.
  let (n, wholeTaken) := takeFitting 0 numeral.whole
  let (m, fractionTaken) := takeFitting n numeral.fraction
  let shift : Int := (numeral.whole.length - wholeTaken : Nat) - (fractionTaken : Int)
  (scale? (Double.ofUInt64 m.toUInt64) (shift + numeral.exponent)).map fun x =>
    .double (if negative then -x else x)

def value? : JsonNumeral → Option JsonNumber
  -- A zero with a minus is no whole number, for only the double keeps its sign.
  | .real negative numeral => double? negative numeral
  | .whole negative digits =>
      let n := natOfDigits digits
      if negative && 0 < n && n ≤ UInt64.size / 2 then some (.whole (-(n : Int)))
      else if !negative && n < UInt64.size then some (.whole n)
      else double? negative ⟨digits, [], 0⟩

end JsonNumeral

end PredicateLang
