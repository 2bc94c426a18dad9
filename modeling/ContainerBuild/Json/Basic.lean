/-!
# JSON values

A JSON text is read into a tree that keeps what the text says and not more: the
members of an object in written order with repeated names, the digits of a
number, and the code units of `\u` escapes, which need not pair up to
characters. What a string or a number *means* is decided by whoever reads it
(`Json.RawText.decode?`, `Json.Number.meaning`).
-/

namespace ContainerBuild.Json

/-- One written character of a string. -/
inductive Piece where
  /-- A character, written as itself or by a short escape. -/
  | char (c : Char)
  /-- A UTF-16 code unit, written as a `\u` escape. -/
  | unit (code : Nat)
  deriving Repr, DecidableEq

/-- The written characters of a string. -/
abbrev RawText := List Piece

/-- A number as it is written. -/
structure Number where
  negative : Bool := false
  /-- The digits before the point. -/
  whole : List Nat
  /-- The digits after the point; none if there is no point. -/
  fraction : List Nat := []
  /-- The exponent: whether it is negative, and its digits. -/
  exponent : Option (Bool × List Nat) := none
  deriving Repr, DecidableEq

/-- A JSON value. -/
inductive Value where
  | null
  | bool (b : Bool)
  | number (n : Number)
  | text (t : RawText)
  | array (items : List Value)
  | object (members : List (RawText × Value))
  deriving Repr, BEq, Inhabited

/-- The written form of a text: every character as itself. -/
def RawText.ofString (text : String) : RawText :=
  text.toList.map .char

namespace Value

/-- A string value. -/
def ofString (text : String) : Value :=
  .text (.ofString text)

/-- A list of strings. -/
def ofStrings (texts : List String) : Value :=
  .array (texts.map ofString)

/-- An object whose members have string values. -/
def ofEntries (entries : List (String × String)) : Value :=
  .object (entries.map fun (name, value) => (.ofString name, ofString value))

/-- An object made of named members, without those that have no value. -/
def record (members : List (String × Option Value)) : Value :=
  .object (members.filterMap fun (name, value?) =>
    value?.map fun value => (RawText.ofString name, value))

end Value

end ContainerBuild.Json
