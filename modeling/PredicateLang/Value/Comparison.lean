import PredicateLang.Operator
import PredicateLang.Value.Equality

set_option autoImplicit false

namespace PredicateLang.Comparison

def holdsFor : Comparison → Float → Float → Bool
  | .lt, x, y => x < y
  | .gt, x, y => y < x
  | .le, x, y => x ≤ y
  | .ge, x, y => y ≤ x
  | .eq, x, y => x == y
  | .ne, x, y => x != y

def holds (comparison : Comparison) (left right : Value) : Bool :=
  match comparison with
  | .eq => left.reprEq right
  | .ne => !left.reprEq right
  | order =>
      match left.asOrdered?, right.asOrdered? with
      | some x, some y => order.holdsFor x y
      | _, _ => false

end PredicateLang.Comparison
