/-!
# Powers of two and ten

The powers that number formats are laid out by. They are functions of their
own, so that what they compute does not depend on how powers of natural numbers
are written elsewhere.
-/

namespace ContainerBuild

/-- The power of two with the given exponent. -/
def powerOfTwo (n : Nat) : Nat :=
  Nat.pow 2 n

/-- The power of ten with the given exponent. -/
def powerOfTen (n : Nat) : Nat :=
  Nat.pow 10 n

end ContainerBuild
