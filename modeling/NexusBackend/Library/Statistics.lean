import NexusBackend.Library.Number

/-!
`float(x)` of a number, and `statistics.median` of floats.

The order of the sort is that of `<` on floats. With a NaN in the list, where `<` is no
order, the sort here is one of those that agree with `<` on the rest.
-/
namespace Python

/-- `float(x)`. -/
def Number.toFloat : Number → Except Exn Float
  | .int n => floatOfInt n
  | .float x => .ok x

/-- `bool(x)`. -/
def Number.truthy : Number → Bool
  | .int n => n ≠ 0
  | .float x => x ≠ .finite 0

namespace Float

/-- `x < y`. -/
def lt : Float → Float → Bool
  | .finite p, .finite q => p < q
  | .finite _, .inf negative => !negative
  | .inf negative, .finite _ => negative
  | .inf negative, .inf negative' => negative && !negative'
  | _, _ => false

/-- `x + y`. -/
def add : Float → Float → Float
  | .finite p, .finite q => ofRat (p + q)
  | .finite _, .inf negative => .inf negative
  | .inf negative, .finite _ => .inf negative
  | .inf negative, .inf negative' => if negative = negative' then .inf negative else .nan
  | _, _ => .nan

/-- `x / 2`. -/
def half : Float → Float
  | .finite q => ofRat (q / 2)
  | x => x

end Float

/-- `statistics.median(data)` of data that is not empty. -/
def median (data : List Float) : Float :=
  let sorted := data.mergeSort fun x y => !y.lt x
  let n := sorted.length
  if n % 2 = 1 then sorted.getD (n / 2) .nan
  else ((sorted.getD (n / 2 - 1) .nan).add (sorted.getD (n / 2) .nan)).half

end Python
