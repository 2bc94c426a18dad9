/-!
# UTF-8

Bytes are read as UTF-8 one *unit* at a time: a character, or a maximal
subpart of an ill-formed sequence, that is, the longest run of bytes that could
begin a character but does not go on as one.

* `decode?` reads a text, and fails if any unit is ill-formed;
* `decodeLossy` reads the replacement character U+FFFD for each such unit.

Surrogates, overlong forms and values above U+10FFFF are ill-formed from their
second byte on, so the byte that shows it begins a unit of its own.
-/

namespace ContainerBuild.Text.Utf8

/-- What has been read of the current character. -/
inductive Reading where
  /-- Nothing: the next byte begins a character. -/
  | start
  /-- A beginning with value `value`. Its next byte lies between `low` and
      `high`, and `more` bytes follow that one. -/
  | within (value : Nat) (low high : UInt8) (more : Nat)
  deriving Repr, DecidableEq

/-- The units that end with the first byte of a character, and what is then
    being read. `none` is an ill-formed unit. -/
def begin (b : UInt8) : List (Option Char) × Reading :=
  let value := b.toNat
  if b < 0x80 then ([some (Char.ofNat value)], .start)
  else if b < 0xC2 then ([none], .start)
  else if b < 0xE0 then ([], .within (value - 0xC0) 0x80 0xBF 0)
  else if b = 0xE0 then ([], .within 0 0xA0 0xBF 1)
  else if b = 0xED then ([], .within 0xD 0x80 0x9F 1)
  else if b < 0xF0 then ([], .within (value - 0xE0) 0x80 0xBF 1)
  else if b = 0xF0 then ([], .within 0 0x90 0xBF 2)
  else if b < 0xF4 then ([], .within (value - 0xF0) 0x80 0xBF 2)
  else if b = 0xF4 then ([], .within 4 0x80 0x8F 2)
  else ([none], .start)

/-- The units that end with a byte, and what is then being read. A byte that
    does not continue the current character ends it as ill-formed and begins
    another. -/
def step : Reading → UInt8 → List (Option Char) × Reading
  | .start, b => begin b
  | .within value low high more, b =>
    if low ≤ b ∧ b ≤ high then
      let value := value * 64 + (b.toNat - 0x80)
      match more with
      | 0 => ([some (Char.ofNat value)], .start)
      | more + 1 => ([], .within value 0x80 0xBF more)
    else
      let (ended, next) := begin b
      (none :: ended, next)

/-- The units of a sequence of bytes, from the middle of a character on. -/
def unitsFrom : Reading → List UInt8 → List (Option Char)
  | .start, [] => []
  | .within .., [] => [none]
  | reading, b :: rest =>
    let (ended, next) := step reading b
    ended ++ unitsFrom next rest

/-- The units of a sequence of bytes. -/
def units (bytes : List UInt8) : List (Option Char) :=
  unitsFrom .start bytes

/-- The text that bytes encode, if all of it is well-formed. -/
def decode? (bytes : List UInt8) : Option (List Char) :=
  (units bytes).mapM id

/-- The character that stands for an ill-formed unit. -/
def replacement : Char := '\ufffd'

/-- The text that bytes encode, with a replacement character for every
    ill-formed unit. -/
def decodeLossy (bytes : List UInt8) : List Char :=
  (units bytes).map (·.getD replacement)

/-- The bytes of a text. -/
def encode (text : String) : List UInt8 :=
  text.toUTF8.toList

end ContainerBuild.Text.Utf8
