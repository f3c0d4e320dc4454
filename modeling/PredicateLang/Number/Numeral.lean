import PredicateLang.Text.CharClass

set_option autoImplicit false

namespace PredicateLang

def natOfDigits (digits : List Char) : Nat :=
  digits.foldl (fun n c => 10 * n + (c.toNat - '0'.toNat)) 0

structure DecimalNumeral where
  -- The digits before the point and behind it, and the exponent.
  whole : List Char
  fraction : List Char
  exponent : Int

inductive Numeral
  | notANumber
  | infinity
  | decimal (numeral : DecimalNumeral)

def DecimalNumeral.digits (numeral : DecimalNumeral) : Nat :=
  natOfDigits (numeral.whole ++ numeral.fraction)

def DecimalNumeral.scale (numeral : DecimalNumeral) : Int :=
  numeral.exponent - numeral.fraction.length

def exponentOf? : List Char → Option Int
  -- An exponent mark, an optional sign and at least one digit; nothing at all is the exponent zero.
  | [] => some 0
  | mark :: rest =>
      if mark = 'e' ∨ mark = 'E' then
        let (negative, digits) := match rest with
          | '-' :: digits => (true, digits)
          | '+' :: digits => (false, digits)
          | digits => (false, digits)
        if digits.isEmpty || !digits.all isDigit then none
        else some (if negative then -(natOfDigits digits : Int) else natOfDigits digits)
      else none

def DecimalNumeral.ofText? (text : List Char) : Option DecimalNumeral :=
  -- Digits with an optional point among or around them, then an optional exponent.
  let whole := text.takeWhile isDigit
  let (fraction, rest) := match text.dropWhile isDigit with
    | '.' :: rest => (rest.takeWhile isDigit, rest.dropWhile isDigit)
    | rest => ([], rest)
  if whole.isEmpty && fraction.isEmpty then none
  else (exponentOf? rest).map fun exponent => ⟨whole, fraction, exponent⟩

namespace Numeral

def lowerText (text : List Char) : String := String.ofList (text.map Char.toLower)

def named? (text : List Char) : Option Numeral :=
  let name := lowerText text
  if name = "inf" ∨ name = "infinity" then some .infinity
  else if name = "nan" then some .notANumber
  else none

def unsigned? (text : List Char) : Option Numeral :=
  (named? text).or ((DecimalNumeral.ofText? text).map .decimal)

def signed? (s : String) : Option (Bool × Numeral) :=
  match s.toList with
  | '-' :: text => (unsigned? text).map (true, ·)
  | '+' :: text => (unsigned? text).map (false, ·)
  | text => (unsigned? text).map (false, ·)

end Numeral

end PredicateLang
