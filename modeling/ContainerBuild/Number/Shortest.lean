import ContainerBuild.Number.Binary64

/-!
# Shortest decimals

The decimal text of a binary floating point number has the fewest digits that
read back as the number, and of those the digits nearest to it. For every count
of digits the two neighbours of the number on that decimal grid are tried; the
first grid with one that reads back wins.
-/

namespace ContainerBuild

/-- A decimal number `significand * 10 ^ exponent`. -/
structure Decimal where
  significand : Nat
  exponent : Int
  deriving Repr, DecidableEq

namespace Decimal

/-- The greatest `p` with `10 ^ p ≤ num / den`, for `num / den` positive, found
    upwards from `p` in at most `steps` steps. -/
def magnitudeFrom (num den : Nat) : Nat → Int → Int
  | 0, p => p
  | steps + 1, p =>
    let q := p + 1
    let reached :=
      if 0 ≤ q then den * powerOfTen q.toNat ≤ num else den ≤ num * powerOfTen (-q).toNat
    if reached then magnitudeFrom num den steps q else p

/-- The neighbours of `num / den` among the multiples of `10 ^ exponent`, the
    nearer one first and the even one of two as near. -/
def neighbours (num den : Nat) (exponent : Int) : List Nat :=
  let (n, d) :=
    if 0 ≤ exponent then (num, den * powerOfTen exponent.toNat)
    else (num * powerOfTen (-exponent).toNat, den)
  let below := n / d
  let twice := 2 * (n % d)
  if twice < d ∨ (twice = d ∧ below % 2 = 0) then [below, below + 1] else [below + 1, below]

/-- Drops the zeros at the end of a significand, at most `steps` of them. -/
def normalize : Nat → Decimal → Decimal
  | 0, x => x
  | steps + 1, x =>
    if x.significand % 10 = 0 ∧ x.significand ≠ 0 then
      normalize steps ⟨x.significand / 10, x.exponent + 1⟩
    else x

/-- The shortest decimal of a number, tried with up to `more` digits beyond
    `digits`. -/
def shortestFrom (x : Binary64) (magnitude : Int) (digits : Nat) : Nat → Decimal
  | 0 => ⟨0, 0⟩
  | more + 1 =>
    let (num, den) := x.toRatio
    let exponent := magnitude - (digits : Int) + 1
    match (neighbours num den exponent).find? fun s => Binary64.ofDecimal s exponent = some x with
    | some s => normalize 20 ⟨s, exponent⟩
    | none => shortestFrom x magnitude (digits + 1) more

/-- The shortest decimal that reads back as a number. -/
def shortest (x : Binary64) : Decimal :=
  if x.mantissa = 0 then ⟨0, 0⟩
  else
    let (num, den) := x.toRatio
    shortestFrom x (magnitudeFrom num den 640 (-330)) 1 17

/-- How decimals are laid out: from which power of ten on, and below which, an
    exponent is written. -/
structure Layout where
  least : Int
  limit : Int

/-- Decimals from `10 ^ (-5)` up to `10 ^ 16` are written without an exponent. -/
def layout : Layout := ⟨-5, 16⟩

/-- The text of a decimal: with a point always, or with a signed exponent. -/
def render (x : Decimal) : String :=
  let digits := Nat.toDigits 10 x.significand
  let count := digits.length
  let power := (count : Int) + x.exponent
  if x.significand = 0 then "0.0"
  else if layout.least < power ∧ power ≤ 0 then
    String.ofList ("0.".toList ++ List.replicate (-power).toNat '0' ++ digits)
  else if 0 < power ∧ power ≤ layout.limit then
    let whole := power.toNat
    let padded := digits ++ List.replicate (whole - count) '0'
    let fraction := padded.drop whole
    String.ofList (padded.take whole ++ '.' :: (if fraction.isEmpty then ['0'] else fraction))
  else
    let scientific := power - 1
    let sign := if scientific < 0 then "-" else "+"
    let tail := if count ≤ 1 then [] else '.' :: digits.drop 1
    String.ofList (digits.take 1 ++ tail) ++ "e" ++ sign ++ toString scientific.natAbs

end Decimal

/-- The shortest text of a number. -/
def Binary64.render (x : Binary64) : String :=
  (Decimal.shortest x).render

end ContainerBuild
