import ContainerBuild.Number.Power
import ContainerBuild.Text.Digit
import ContainerBuild.Toml.Basic

/-!
# TOML scalars

The values that are written as one word: Booleans, integers, floating point
numbers, dates and times. Every word is one of them or none.

Digits may be separated by single underscores. Integers lie in the range of 64
bits. A floating point number must not be too large for its format, but a
negative one that is counts as infinite. A date must exist in the calendar.
-/

namespace ContainerBuild.Toml

/-- One or more digits with single underscores between them. -/
def digits? (digit? : Char → Option Nat) : List Char → Option (List Nat)
  | [] => none
  | [c] => (digit? c).map ([·])
  | c :: '_' :: rest => do return (← digit? c) :: (← digits? digit? rest)
  | c :: rest => do return (← digit? c) :: (← digits? digit? rest)

/-- Whether a word is negative, and the rest of it. -/
def sign : List Char → Bool × List Char
  | '-' :: rest => (true, rest)
  | '+' :: rest => (false, rest)
  | word => (false, word)

/-- A number with a sign. -/
def signed (negative : Bool) (n : Nat) : Int :=
  if negative then -(n : Int) else n

/-! ### Integers -/

/-- Decimal digits without a leading zero. -/
def wholeDigits? (word : List Char) : Option (List Nat) := do
  let digits ← digits? Text.digit? word
  match digits with
  | 0 :: _ :: _ => none
  | digits => some digits

/-- The digit of a base up to sixteen. -/
def digitBelow? (base : Nat) (c : Char) : Option Nat :=
  (Text.hexDigit? c).filter (· < base)

/-- An integer in the range of 64 bits. -/
def inRange (n : Int) : Option Int :=
  if -(powerOfTwo 63 : Int) ≤ n ∧ n < (powerOfTwo 63 : Int) then some n else none

/-- The integer that a word writes in a base. -/
def based? (base : Nat) (word : List Char) : Option Int := do
  let digits ← digits? (digitBelow? base) word
  inRange (Text.ofDigits base digits)

/-- The integer that a word writes. -/
def integer? : List Char → Option Int
  | '0' :: 'x' :: word => based? 16 word
  | '0' :: 'o' :: word => based? 8 word
  | '0' :: 'b' :: word => based? 2 word
  | word => do
    let (negative, word) := sign word
    let digits ← wholeDigits? word
    inRange (signed negative (Text.ofDigits 10 digits))

/-! ### Floating point numbers -/

/-- Whether a character begins an exponent. -/
def isExponentMark (c : Char) : Bool :=
  c = 'e' || c = 'E'

/-- The exponent that the end of a word writes: nothing, or a mark and an integer
    that may have leading zeros. -/
def exponent? : List Char → Option Int
  | [] => some 0
  | mark :: word =>
    if isExponentMark mark then do
      let (negative, word) := sign word
      let digits ← digits? Text.digit? word
      return signed negative (Text.ofDigits 10 digits)
    else none

/-- The digits after the point that the end of a word writes, and what follows
    them. Without a point there must be an exponent. -/
def fraction? : List Char → Option (List Nat × List Char)
  | '.' :: word => do
    let (digits, rest) := word.span fun c => !isExponentMark c
    return (← digits? Text.digit? digits, rest)
  | [] => none
  | word => some ([], word)

/-- The order of magnitude from which on every number is too large, and below
    whose negative every number is nearest to zero. -/
def magnitudeLimit : Int := 400

/-- The magnitude of a row of digits times a power of ten. -/
def magnitude (digits : List Nat) (exponent : Int) : Magnitude :=
  let significand := Text.ofDigits 10 digits
  let order := exponent + digits.length
  if significand = 0 ∨ order < -magnitudeLimit then .finite .zero
  else if magnitudeLimit < exponent then .infinite
  else match Binary64.ofDecimal significand exponent with
    | some x => .finite x
    | none => .infinite

/-- The floating point number that a word writes without its sign. -/
def float? (negative : Bool) (word : List Char) : Option Value := do
  let (whole, rest) := word.span fun c => c ≠ '.' && !isExponentMark c
  let whole ← wholeDigits? whole
  let (fraction, rest) ← fraction? rest
  let exponent ← exponent? rest
  let m := magnitude (whole ++ fraction) (exponent - fraction.length)
  if m = .infinite ∧ ¬ negative then none else some (.float negative m)

/-- The special floating point number that a word writes without its sign. -/
def special? (negative : Bool) (word : List Char) : Option Value :=
  if word = ['i', 'n', 'f'] then some (.float negative .infinite)
  else if word = ['n', 'a', 'n'] then some (.float negative .notNumber)
  else none

/-! ### Dates and times -/

/-- The number that some digits write. -/
def count? (digits : List Char) (low high : Nat) : Option Nat :=
  (Text.decimal? digits).filter fun n => low ≤ n && n ≤ high

/-- Whether a year has a leap day. -/
def isLeap (year : Nat) : Bool :=
  year % 4 = 0 && (year % 100 ≠ 0 || year % 400 = 0)

/-- The number of days of a month. -/
def daysIn (year month : Nat) : Nat :=
  if month = 2 then if isLeap year then 29 else 28
  else if [4, 6, 9, 11].contains month then 30
  else 31

/-- Whether a text is a date, such as `1979-05-27`. -/
def isDate : List Char → Bool
  | [y₁, y₂, y₃, y₄, '-', m₁, m₂, '-', d₁, d₂] =>
    (do
      let year ← count? [y₁, y₂, y₃, y₄] 0 9999
      let month ← count? [m₁, m₂] 1 12
      count? [d₁, d₂] 1 (daysIn year month)).isSome
  | _ => false

/-- Whether a text is a difference to universal time, such as `Z` or `+01:00`. -/
def isOffset : List Char → Bool
  | ['Z'] | ['z'] => true
  | [mark, h₁, h₂, ':', m₁, m₂] =>
    (mark = '+' || mark = '-') && (count? [h₁, h₂] 0 23).isSome && (count? [m₁, m₂] 0 59).isSome
  | _ => false

/-- What follows a fraction of seconds; none if the fraction has no digits. -/
def afterFraction? : List Char → Option (List Char)
  | '.' :: rest =>
    match rest.span fun c => (Text.digit? c).isSome with
    | ([], _) => none
    | (_, rest) => some rest
  | rest => some rest

/-- What follows a time of the day, such as `07:32:00.25`. -/
def afterTime? : List Char → Option (List Char)
  | h₁ :: h₂ :: ':' :: m₁ :: m₂ :: ':' :: s₁ :: s₂ :: rest => do
    let _ ← count? [h₁, h₂] 0 23
    let _ ← count? [m₁, m₂] 0 59
    let _ ← count? [s₁, s₂] 0 60
    afterFraction? rest
  | _ => none

/-- Whether a character stands between a date and a time. -/
def isDelimiter (c : Char) : Bool :=
  c = 'T' || c = 't' || c = ' '

/-- The length of a date. -/
def dateLength : Nat := 10

/-- Whether a text is a date, a time, or both. Only a time with a date may have a
    difference to universal time. -/
def isMoment (word : List Char) : Bool :=
  if isDate (word.take dateLength) then
    match word.drop dateLength with
    | [] => true
    | c :: time =>
      isDelimiter c &&
        match afterTime? time with
        | some [] => true
        | some offset => isOffset offset
        | none => false
  else afterTime? word = some []

/-! ### Words -/

/-- Whether a character may be a part of a word. -/
def isWordCharacter (c : Char) : Bool :=
  c.isAlphanum || c = '+' || c = '-' || c = '_' || c = '.' || c = ':'

/-- The value that a word writes. -/
def word? (word : List Char) : Option Value :=
  if word = "true".toList then some (.bool true)
  else if word = "false".toList then some (.bool false)
  else if isMoment word then some (.moment (String.ofList word))
  else
    let (negative, magnitude) := sign word
    ((integer? word).map .integer).or
      ((float? negative magnitude).or (special? negative magnitude))

/-- Reads a word. A date may be followed by a space and a time. -/
def scalar? (text : List Char) : Option (Value × List Char) :=
  let (word, rest) := text.span isWordCharacter
  match rest with
  | ' ' :: c :: more =>
    if (Text.digit? c).isSome then
      let (time, rest) := (c :: more).span isWordCharacter
      (word? (word ++ ' ' :: time)).map (·, rest)
    else (word? word).map (·, rest)
  | rest => (word? word).map (·, rest)

end ContainerBuild.Toml
