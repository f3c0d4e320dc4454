import PredicateLang.Number.Numeral

set_option autoImplicit false

namespace PredicateLang.Count

def read? (text : String) : Option Nat :=
  -- Decimal digits, with a plus sign before them at most.
  let digits := match text.toList with
    | '+' :: rest => rest
    | digits => digits
  if digits.isEmpty || !digits.all isDigit then none
  else
    let count := natOfDigits digits
    if count < UInt64.size then some count else none

end PredicateLang.Count
