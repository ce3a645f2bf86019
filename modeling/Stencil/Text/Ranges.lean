/-!
# Ranges of code points

Properties of characters are kept as tables of ranges.

* `Ranges`, `Ranges.contains`: a set of code points
-/

namespace Stencil.Text

/-- A set of code points, as ranges with both ends included. -/
abbrev Ranges := List (Nat × Nat)

/-- Is the code point in one of the ranges? -/
def Ranges.contains (ranges : Ranges) (n : Nat) : Bool :=
  ranges.any fun (first, last) => first ≤ n && n ≤ last

end Stencil.Text
