import ContainerBuild.Json.Basic
import ContainerBuild.Text.Digit

/-!
# Writing JSON

Two layouts: *compact*, without any white space, and *indented*, with each item
and member on a line of its own, two spaces deeper than what holds it, and
empty arrays and objects closed at once.

A character is written as itself except for quotes, backslashes and those below
U+0020, which have a short escape or a `\u` escape in lower case.
-/

namespace ContainerBuild.Json

/-- The written form of a character in a string. -/
def escapeChar (c : Char) : List Char :=
  if c = '"' then ['\\', '"']
  else if c = '\\' then ['\\', '\\']
  else if c = '\x08' then ['\\', 'b']
  else if c = '\x0c' then ['\\', 'f']
  else if c = '\n' then ['\\', 'n']
  else if c = '\r' then ['\\', 'r']
  else if c = '\t' then ['\\', 't']
  else if c.toNat < 0x20 then '\\' :: 'u' :: Text.hexPadded 4 c.toNat
  else [c]

/-- The written form of one piece of a string. -/
def Piece.render : Piece → List Char
  | .char c => escapeChar c
  | .unit code => '\\' :: 'u' :: Text.hexPadded 4 code

/-- The written form of a string. -/
def RawText.render (t : RawText) : List Char :=
  '"' :: t.flatMap Piece.render ++ ['"']

/-- The character of a digit. -/
def digitChar (d : Nat) : Char :=
  Char.ofNat ('0'.toNat + d)

/-- The written form of a number. -/
def Number.render (n : Number) : List Char :=
  let sign := if n.negative then ['-'] else []
  let fraction := if n.fraction.isEmpty then [] else '.' :: n.fraction.map digitChar
  let exponent := match n.exponent with
    | none => []
    | some (negative, digits) =>
      'e' :: (if negative then ['-'] else []) ++ digits.map digitChar
  sign ++ n.whole.map digitChar ++ fraction ++ exponent

namespace Value

mutual

/-- The compact text of a value. -/
def compact : Value → List Char
  | .null => "null".toList
  | .bool b => if b then "true".toList else "false".toList
  | .number n => n.render
  | .text t => t.render
  | .array items => '[' :: compactItems items ++ [']']
  | .object members => '\x7b' :: compactMembers members ++ ['\x7d']

/-- The compact text of the items of an array. -/
def compactItems : List Value → List Char
  | [] => []
  | [v] => v.compact
  | v :: rest => v.compact ++ ',' :: compactItems rest

/-- The compact text of the members of an object. -/
def compactMembers : List (RawText × Value) → List Char
  | [] => []
  | [(name, v)] => name.render ++ ':' :: v.compact
  | (name, v) :: rest => name.render ++ ':' :: v.compact ++ ',' :: compactMembers rest

end

/-- The line break before something at a depth. -/
def lineBreak (depth : Nat) : List Char :=
  '\n' :: List.replicate (2 * depth) ' '

mutual

/-- The indented text of a value at a depth. -/
def indented (depth : Nat) : Value → List Char
  | .null => "null".toList
  | .bool b => if b then "true".toList else "false".toList
  | .number n => n.render
  | .text t => t.render
  | .array [] => ['[', ']']
  | .array (v :: rest) => '[' :: indentedItems (depth + 1) (v :: rest) ++ lineBreak depth ++ [']']
  | .object [] => ['\x7b', '\x7d']
  | .object (m :: rest) =>
    '\x7b' :: indentedMembers (depth + 1) (m :: rest) ++ lineBreak depth ++ ['\x7d']

/-- The items of an array, each on a line of its own. -/
def indentedItems (depth : Nat) : List Value → List Char
  | [] => []
  | [v] => lineBreak depth ++ v.indented depth
  | v :: rest => lineBreak depth ++ v.indented depth ++ ',' :: indentedItems depth rest

/-- The members of an object, each on a line of its own. -/
def indentedMembers (depth : Nat) : List (RawText × Value) → List Char
  | [] => []
  | [(name, v)] => lineBreak depth ++ name.render ++ ':' :: ' ' :: v.indented depth
  | (name, v) :: rest =>
    lineBreak depth ++ name.render ++ ':' :: ' ' :: v.indented depth ++
      ',' :: indentedMembers depth rest

end

/-- The compact text of a value, as a string. -/
def toCompactString (v : Value) : String :=
  String.ofList v.compact

/-- The indented text of a value, as a string. -/
def toIndentedString (v : Value) : String :=
  String.ofList (v.indented 0)

end Value

end ContainerBuild.Json
