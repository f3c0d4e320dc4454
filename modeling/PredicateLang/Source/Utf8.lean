set_option autoImplicit false

namespace PredicateLang.Utf8

def width? (lead : UInt8) : Option Nat :=
  if lead ≤ 0x7F then some 1
  else if 0xC2 ≤ lead ∧ lead ≤ 0xDF then some 2
  else if 0xE0 ≤ lead ∧ lead ≤ 0xEF then some 3
  else if 0xF0 ≤ lead ∧ lead ≤ 0xF4 then some 4
  else none

def isTail (b : UInt8) : Bool := 0x80 ≤ b && b ≤ 0xBF

-- The six bits that a byte after the first one carries.
def tailBits (b : UInt8) : Nat := b.toNat % 64

-- The character with a number that needs so many bits at least.
def charOf? (least n : Nat) : Option Char :=
  if least ≤ n then
    if valid : n.isValidChar then some (Char.ofNatAux n valid) else none
  else none

def decode? : List UInt8 → Option Char
  | [a] => if width? a = some 1 then charOf? 0 a.toNat else none
  | [a, b] =>
      if width? a = some 2 && isTail b then
        charOf? 0x80 (a.toNat % 32 * 64 + tailBits b)
      else none
  | [a, b, c] =>
      if width? a = some 3 && isTail b && isTail c then
        charOf? 0x800 (a.toNat % 16 * 4096 + tailBits b * 64 + tailBits c)
      else none
  | [a, b, c, d] =>
      if width? a = some 4 && isTail b && isTail c && isTail d then
        charOf? 0x10000 (a.toNat % 8 * 262144 + tailBits b * 4096 + tailBits c * 64 + tailBits d)
      else none
  | _ => none

def text? (bytes : List UInt8) : Option String := String.fromUTF8? ⟨bytes.toArray⟩

end PredicateLang.Utf8
