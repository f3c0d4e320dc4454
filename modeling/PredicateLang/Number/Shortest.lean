set_option autoImplicit false

/-!
# Shortest decimal form

A finite floating-point number stands for `m * 2 ^ e`, and every real number nearer to it than to its
neighbours rounds to it. Of the decimals in that interval the shortest form is the one with the fewest
digits, and among those the nearest. The ends of the interval round to the number iff `m` is even.
-/

namespace PredicateLang

structure Decimal where
  digits : Nat
  exponent : Int
  deriving DecidableEq

/-- How floating-point numbers are spaced: the mantissa starts anew at `firstMantissa`, except under the
least exponent. -/
structure Precision where
  firstMantissa : Nat
  leastExponent : Int

def Precision.double : Precision := ⟨1 <<< 52, -1074⟩

def Precision.single : Precision := ⟨1 <<< 23, -149⟩

-- Which of two equally near decimals is taken.
inductive Tie
  | up
  | even
  deriving DecidableEq

namespace Decimal

/-- Reals that round to a number are at most half a step above it, and at most half the step that leads
to it from below; that step is halved where the mantissa starts anew. -/
structure Interval where
  low : Nat
  value : Nat
  high : Nat
  closed : Bool

def Interval.ofBinary (p : Precision) (m : Nat) (e : Int) : Interval where
  low := 4 * m - (if m = p.firstMantissa ∧ e ≠ p.leastExponent then 1 else 2)
  value := 4 * m
  high := 4 * m + 2
  closed := m % 2 = 0

def Interval.contains (i : Interval) (fine coarse q : Nat) : Bool :=
  -- The interval is measured in quarters of `2 ^ e`, the decimal in units of `10 ^ k`; after
  -- multiplying by `fine` and `coarse` both are whole numbers of one unit.
  if i.closed then i.low * fine ≤ q * coarse && q * coarse ≤ i.high * fine
  else i.low * fine < q * coarse && q * coarse < i.high * fine

def nearer (tie : Tie) (below above : Nat) (q : Nat) : Nat :=
  if below < above then q
  else if above < below then q + 1
  else match tie with
    | .up => q + 1
    | .even => if q % 2 = 0 then q else q + 1

/-- The multiple of `10 ^ k` that `m * 2 ^ e` is written as, if one rounds to it. -/
def onGrid (p : Precision) (tie : Tie) (m : Nat) (e : Int) (k : Int) : Option Nat :=
  let i := Interval.ofBinary p m e
  let fine := Nat.pow 10 (-k).toNat * Nat.pow 2 (e - 2).toNat
  let coarse := Nat.pow 10 k.toNat * Nat.pow 2 (2 - e).toNat
  let q := i.value * fine / coarse
  match i.contains fine coarse q, i.contains fine coarse (q + 1) with
  | true, true =>
      some (nearer tie (i.value * fine - q * coarse) ((q + 1) * coarse - i.value * fine) q)
  | true, false => some q
  | false, true => some (q + 1)
  | false, false => none

def shortest (p : Precision) (tie : Tie) (m : Nat) (e : Int) : Decimal :=
  -- Seventeen digits always tell two doubles apart, so a grid among the first twenty-two has a hit.
  let top := (m.log2 + e) * 30103 / 100000 + 2
  let grids := (List.range 22).map fun (i : Nat) => top - (i : Int)
  (grids.findSome? fun k => (onGrid p tie m e k).map fun q => ⟨q, k⟩).getD ⟨m, e⟩

end Decimal

end PredicateLang
