/-!
# Sets of code points

A set of characters is written as a table of the inclusive ranges of its code
points, in increasing order.
-/

namespace ContainerBuild.Text

/-- A table of inclusive ranges of code points. -/
abbrev CodePoints := List (Nat × Nat)

/-- Whether a character's code point lies in one of the ranges. -/
def CodePoints.has (table : CodePoints) (c : Char) : Bool :=
  table.any fun (first, last) => first ≤ c.toNat && c.toNat ≤ last

end ContainerBuild.Text
