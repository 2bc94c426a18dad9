import ContainerBuild.Json.Basic
import ContainerBuild.Number.Power
import ContainerBuild.Number.Shortest
import ContainerBuild.Text.Digit

/-!
# What strings and numbers mean

A string has a meaning if its code units above U+D7FF form surrogate pairs. A
number without point and exponent that fits 64 bits is an integer; any other
one is a binary floating point number, unless it is too large for that.

The digits of a number are taken into a 64-bit significand as long as they fit,
and what does not fit only counts as a power of ten. The significand is rounded
to the floating point format and then scaled by powers of ten of at most 308,
with a rounding at each step.
-/

namespace ContainerBuild.Json

/-- Why a string has no meaning. -/
inductive TextFault where
  /-- A code unit that can only end a pair ends none, or a pair has two beginnings. -/
  | loneSurrogate
  /-- A code unit that begins a pair is followed by something else. -/
  | brokenPair
  deriving Repr, DecidableEq

/-- The text of a fault. -/
def TextFault.message : TextFault → String
  | .loneSurrogate => "lone leading surrogate in hex escape"
  | .brokenPair => "unexpected end of hex escape"

/-- Whether a code unit begins a surrogate pair. -/
def beginsPair (code : Nat) : Bool :=
  0xD800 ≤ code && code ≤ 0xDBFF

/-- Whether a code unit ends a surrogate pair. -/
def endsPair (code : Nat) : Bool :=
  0xDC00 ≤ code && code ≤ 0xDFFF

/-- The character of a surrogate pair. -/
def pairChar (first second : Nat) : Char :=
  Char.ofNat (0x10000 + (first - 0xD800) * 0x400 + (second - 0xDC00))

/-- The characters of a string after a code unit that begins a pair, if there
    is one (`pending`). -/
def decodeFrom (pending : Option Nat) : RawText → Except TextFault (List Char)
  | [] =>
    match pending with
    | none => .ok []
    | some _ => .error .brokenPair
  | .char c :: rest =>
    match pending with
    | none => (decodeFrom none rest).map (c :: ·)
    | some _ => .error .brokenPair
  | .unit code :: rest =>
    match pending with
    | none =>
      if endsPair code then .error .loneSurrogate
      else if beginsPair code then decodeFrom (some code) rest
      else (decodeFrom none rest).map (Char.ofNat code :: ·)
    | some first =>
      if endsPair code then (decodeFrom none rest).map (pairChar first code :: ·)
      else .error .loneSurrogate

/-- The text that a string means. -/
def RawText.decode (t : RawText) : Except TextFault String :=
  (decodeFrom none t).map String.ofList

/-- What a number means. -/
inductive Numeral where
  | integer (n : Int)
  | floating (negative : Bool) (magnitude : Binary64)
  deriving Repr, DecidableEq

namespace Number

/-- The significand that takes as many of the digits as fit 64 bits, and the
    count of those that do not. -/
def absorb (significand : Nat) : List Nat → Nat × Nat
  | [] => (significand, 0)
  | d :: rest =>
    if significand * 10 + d < powerOfTwo 64 then absorb (significand * 10 + d) rest
    else (significand, rest.length + 1)

/-- The greatest power of ten of one scaling step. -/
def scaleStep : Nat := 308

/-- Scales by a power of ten, in at most `steps` steps. None is a number that
    is too large. -/
def scale : Nat → Binary64 → Int → Option Binary64
  | 0, x, _ => some x
  | steps + 1, x, exponent =>
    if x.mantissa = 0 then some x
    else if exponent.natAbs ≤ scaleStep then do
      let power ← Binary64.ofNat (powerOfTen exponent.natAbs)
      if 0 ≤ exponent then x.mul power else x.div power
    else if 0 ≤ exponent then none
    else do
      let power ← Binary64.ofNat (powerOfTen scaleStep)
      scale steps (← x.div power) (exponent + scaleStep)

/-- The largest exponent that is told from a still larger one. -/
def exponentLimit : Nat := powerOfTwo 31 - 1

/-- The magnitude of a number that is not an integer. -/
def magnitude (n : Number) : Option Binary64 := do
  let (significand, extra) := absorb 0 n.whole
  let (significand, ignored) := absorb significand n.fraction
  let taken := n.fraction.length - ignored
  let start : Int := (extra : Int) - (taken : Int)
  let x ← Binary64.ofNat significand
  match n.exponent with
  | none => scale 4 x start
  | some (negative, digits) =>
    let size := Text.ofDigits 10 digits
    if exponentLimit < size then
      if significand ≠ 0 ∧ ¬ negative then none else some Binary64.zero
    else
      -- A third step down finds nothing but zero.
      scale 4 x (if negative then start - size else start + size)

/-- What a number means; none if it is too large. -/
def meaning (n : Number) : Option Numeral :=
  let floating := n.magnitude.map (Numeral.floating n.negative)
  match n.fraction, n.exponent with
  | [], none =>
    let whole := Text.ofDigits 10 n.whole
    if n.negative then
      if 0 < whole ∧ whole ≤ powerOfTwo 63 then some (.integer (-whole)) else floating
    else if whole < powerOfTwo 64 then some (.integer whole) else floating
  | _, _ => floating

end Number

end ContainerBuild.Json
