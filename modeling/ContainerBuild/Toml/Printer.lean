import ContainerBuild.Text.Digit

/-!
# Writing TOML strings

A string is written in the first of these styles that fits it: basic, literal,
basic of several lines, literal of several lines. A style fits a string without
control characters in which it has nothing to escape, apart from tabs. If none
fits, the string is written in the basic style, of several lines if it has any
line feed, with escapes.

A string of several lines begins on a line of its own if it has any line feed.
-/

namespace ContainerBuild.Toml

/-- The styles of a string. -/
inductive Style where
  | basic
  | literal
  | multiBasic
  | multiLiteral
  deriving Repr, DecidableEq

/-- Whether a character is a control character other than a tab or a line feed. -/
def needsEscape (c : Char) : Bool :=
  (c.toNat < 0x20 && c ≠ '\t' && c ≠ '\n') || c.toNat = 0x7F

/-- Whether a text has a character three times in a row. -/
def tripled (quote : Char) : List Char → Bool
  | a :: b :: c :: rest =>
    (a = quote && b = quote && c = quote) || tripled quote (b :: c :: rest)
  | _ => false

/-- The style in which a text is written. -/
def styleOf (text : List Char) : Style :=
  let lined := text.contains '\n'
  let slashed := text.contains '\\'
  let escaped := if lined then Style.multiBasic else .basic
  if text.any needsEscape then escaped
  else if !slashed && !text.contains '"' && !lined then .basic
  else if !text.contains '\'' && !lined then .literal
  else if !slashed && !tripled '"' text then .multiBasic
  else if !tripled '\'' text then .multiLiteral
  else escaped

/-- The written form of a character in a basic string. -/
def escapeChar (c : Char) : List Char :=
  if c = '\x08' then ['\\', 'b']
  else if c = '\t' then ['\\', 't']
  else if c = '\n' then ['\\', 'n']
  else if c = '\x0c' then ['\\', 'f']
  else if c = '\r' then ['\\', 'r']
  else if c = '"' || c = '\\' then ['\\', c]
  else if needsEscape c then '\\' :: 'u' :: (Text.hexPadded 4 c.toNat).map Char.toUpper
  else [c]

/-- The written form of a text in a basic string of several lines, after some
    double quotes in a row. No three of them are written in a row. -/
def escapeLines (quotes : Nat) : List Char → List Char
  | [] => []
  | c :: rest =>
    if c = '"' then
      if quotes < 2 then c :: escapeLines (quotes + 1) rest
      else '\\' :: c :: escapeLines 0 rest
    else if c = '\n' then c :: escapeLines 0 rest
    else escapeChar c ++ escapeLines 0 rest

/-- The quotes of a string of several lines. -/
def tripleQuotes (quote : Char) : List Char :=
  [quote, quote, quote]

/-- A string of several lines with a body that has been written. -/
def multiline (quote : Char) (lined : Bool) (body : List Char) : List Char :=
  tripleQuotes quote ++ (if lined then ['\n'] else []) ++ body ++ tripleQuotes quote

/-- A text written in a style. -/
def Style.render (text : List Char) : Style → List Char
  | .basic => '"' :: text.flatMap escapeChar ++ ['"']
  | .literal => '\'' :: text ++ ['\'']
  | .multiBasic => multiline '"' (text.contains '\n') (escapeLines 0 text)
  | .multiLiteral => multiline '\'' (text.contains '\n') text

/-- A string as it is written. -/
def renderString (s : String) : String :=
  String.ofList ((styleOf s.toList).render s.toList)

/-- A Boolean as it is written. -/
def renderBool (b : Bool) : String :=
  if b then "true" else "false"

/-- The line that gives a key a value. -/
def assignmentLine (key value : String) : String :=
  key ++ " = " ++ value ++ "\n"

/-- The line that begins a table. -/
def tableLine (name : String) : String :=
  "[" ++ name ++ "]\n"

/-- The line that begins an element of an array of tables. -/
def elementLine (name : String) : String :=
  "[[" ++ name ++ "]]\n"

end ContainerBuild.Toml
