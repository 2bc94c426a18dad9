import ContainerBuild.Number.Power

/-!
# Binary floating point

The non-negative finite numbers of the 64-bit binary format, as `mantissa`
times a power of two. The arithmetic is exact on natural numbers with one
rounding at the end, to the nearest number of the format, a tie going to the
even mantissa; a result too large for the format has no value.
-/

namespace ContainerBuild

/-- A non-negative finite number `mantissa * 2 ^ exponent`. -/
structure Binary64 where
  mantissa : Nat
  exponent : Int
  deriving Repr, DecidableEq

namespace Binary64

/-- The number zero. -/
def zero : Binary64 := ⟨0, 0⟩

/-- The least exponent of a mantissa. -/
def leastExponent : Int := -1074

/-- The number of bits of a mantissa. -/
def precision : Nat := 53

/-- The quotient `num / den * 2 ^ (-exponent)` as a fraction. -/
def scaled (num den : Nat) (exponent : Int) : Nat × Nat :=
  if 0 ≤ exponent then (num, den * powerOfTwo exponent.toNat)
  else (num * powerOfTwo (-exponent).toNat, den)

/-- The quotient of two natural numbers, rounded to the nearest, ties to even. -/
def divRound (num den : Nat) : Nat :=
  let q := num / den
  let twice := 2 * (num % den)
  if twice < den then q
  else if den < twice then q + 1
  else if q % 2 = 0 then q else q + 1

/-- The exponent at which the mantissa of `num / den` has all its bits, or the
    least one. -/
def exponentOf (num den : Nat) : Int :=
  let guess : Int := (num.log2 : Int) - (den.log2 : Int) - (precision : Int)
  -- The quotient lies between `2 ^ (guess + 52)` and `2 ^ (guess + 54)`.
  let (n, d) := scaled num den guess
  let exponent := if n / d < powerOfTwo precision then guess else guess + 1
  max exponent leastExponent

/-- The number of the format nearest to `num / den`; none if that is infinite. -/
def ofRatio (num den : Nat) : Option Binary64 :=
  if num = 0 then some zero
  else
    let exponent := exponentOf num den
    let (n, d) := scaled num den exponent
    let m := divRound n d
    let (mantissa, exponent) :=
      if m = powerOfTwo precision then (powerOfTwo (precision - 1), exponent + 1) else (m, exponent)
    if 971 < exponent then none else some ⟨mantissa, exponent⟩

/-- The value of a number as a fraction. -/
def toRatio (x : Binary64) : Nat × Nat :=
  if 0 ≤ x.exponent then (x.mantissa * powerOfTwo x.exponent.toNat, 1)
  else (x.mantissa, powerOfTwo (-x.exponent).toNat)

/-- The nearest number to a natural number. -/
def ofNat (n : Nat) : Option Binary64 :=
  ofRatio n 1

/-- The rounded product. -/
def mul (x y : Binary64) : Option Binary64 :=
  let (a, b) := x.toRatio
  let (c, d) := y.toRatio
  ofRatio (a * c) (b * d)

/-- The rounded quotient by a number other than zero. -/
def div (x y : Binary64) : Option Binary64 :=
  let (a, b) := x.toRatio
  let (c, d) := y.toRatio
  ofRatio (a * d) (b * c)

/-- The number nearest to `significand * 10 ^ exponent`. -/
def ofDecimal (significand : Nat) (exponent : Int) : Option Binary64 :=
  if 0 ≤ exponent then ofRatio (significand * powerOfTen exponent.toNat) 1
  else ofRatio significand (powerOfTen (-exponent).toNat)

end Binary64

end ContainerBuild
