import PredicateLang.Number.Shortest

set_option autoImplicit false

namespace PredicateLang

structure NumberStyle where
  -- Numbers of at least `10 ^ least` and below `10 ^ bound` are positional.
  least : Int
  bound : Int
  -- Written before an exponent that is not negative.
  plus : String
  tie : Tie

namespace NumberStyle

-- Values are displayed positionally from `0.0001` up to `10 ^ 16`.
def display : NumberStyle := ⟨-4, 16, "", .up⟩

-- Numbers of a JSON text are positional from `0.00001` up to `10 ^ 16`.
def json : NumberStyle := ⟨-5, 16, "+", .even⟩

-- Singles of a JSON text are positional from `0.000001` up to `10 ^ 13`.
def jsonSingle : NumberStyle := ⟨-6, 13, "+", .even⟩

def zeros (n : Nat) : List Char := List.replicate n '0'

def positional (digits : List Char) (exponent : Int) : List Char :=
  if 0 ≤ exponent then digits ++ zeros exponent.toNat ++ ['.', '0']
  else
    let places := (-exponent).toNat
    if places < digits.length then
      digits.take (digits.length - places) ++ '.' :: digits.drop (digits.length - places)
    else '0' :: '.' :: zeros (places - digits.length) ++ digits

def scientific (plus : String) (digits : List Char) (magnitude : Int) : List Char :=
  let fraction := digits.drop 1
  digits.take 1 ++ (if fraction.isEmpty then [] else '.' :: fraction) ++
    'e' :: (if magnitude < 0 then ['-'] else plus.toList) ++ Nat.toDigits 10 magnitude.natAbs

def magnitudeText (style : NumberStyle) (d : Decimal) : List Char :=
  let digits := Nat.toDigits 10 d.digits
  let magnitude := d.exponent + digits.length - 1
  if style.least ≤ magnitude ∧ magnitude < style.bound then positional digits d.exponent
  else scientific style.plus digits magnitude

def signText : Float.Model.UnpackedFloat.Sign → String
  | .positive => ""
  | .negative => "-"

def writeUnpacked (style : NumberStyle) (p : Precision) : Float.Model.UnpackedFloat → String
  | .notANumber => "NaN"
  | .infinity sign => signText sign ++ "inf"
  | .zero sign => signText sign ++ "0.0"
  | .finite sign m e _ =>
      signText sign ++ String.ofList (style.magnitudeText (Decimal.shortest p style.tie m e))

def write (style : NumberStyle) (x : Float) : String :=
  style.writeUnpacked .double x.toModel.unpack

def writeSingle (style : NumberStyle) (x : Float32) : String :=
  -- Singles have fewer digits, as fewer of them are to be told apart.
  style.writeUnpacked .single x.toModel.unpack

end NumberStyle

end PredicateLang
