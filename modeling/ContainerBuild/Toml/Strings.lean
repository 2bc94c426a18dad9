import ContainerBuild.Text.Digit

/-!
# TOML strings

There are four kinds of strings: *basic* ones, between double quotes and with
escapes, and *literal* ones, between single quotes and without; and of each kind
the one of a single line and the one of several lines, between three quotes.

A string is read in steps (`StringStep`), of which the last one closes it. In a
string of several lines a line feed right after the opening quotes is dropped,
one or two quotes stand for themselves, also right before the closing ones, and
a backslash at the end of a line takes all the white space after it away.
-/

namespace ContainerBuild.Toml

/-- Whether a character may stand in a string, or in a comment, for itself: a tab
    or any character that is no control character. -/
def isPlain (c : Char) : Bool :=
  c = '\t' || (0x20 ≤ c.toNat && c.toNat ≠ 0x7F)

/-- Whether a character is white space within a line. -/
def isSpace (c : Char) : Bool :=
  c = ' ' || c = '\t'

/-- The text after a line ending at its beginning. -/
def afterNewline? : List Char → Option (List Char)
  | '\n' :: rest => some rest
  | '\r' :: '\n' :: rest => some rest
  | _ => none

/-- A text without the white space and the line endings at its beginning. -/
def skipSpaceLines : List Char → List Char
  | [] => []
  | c :: rest =>
    if isSpace c || c = '\n' then skipSpaceLines rest
    else if c = '\r' then
      match rest with
      | '\n' :: rest => skipSpaceLines rest
      | rest => c :: rest
    else c :: rest

/-- The character whose code point is written by the first `count` characters,
    and what follows it. Surrogates are no characters. -/
def codePoint? (count : Nat) (text : List Char) : Option (Char × List Char) := do
  let digits ← (text.take count).mapM Text.hexDigit?
  let code := Text.ofDigits 16 digits
  if digits.length = count ∧ code.isValidChar then some (Char.ofNat code, text.drop count) else none

/-- The character of an escape, from the character after the backslash on, and
    what follows it. -/
def escape? : List Char → Option (Char × List Char)
  | [] => none
  | c :: rest =>
    if c = 'b' then some ('\x08', rest)
    else if c = 't' then some ('\t', rest)
    else if c = 'n' then some ('\n', rest)
    else if c = 'f' then some ('\x0c', rest)
    else if c = 'r' then some ('\r', rest)
    else if c = '"' ∨ c = '\\' then some (c, rest)
    else if c = 'u' then codePoint? 4 rest
    else if c = 'U' then codePoint? 8 rest
    else none

/-- One step through a string: the text that it adds, whether it closes the
    string, and what follows it. -/
structure StringStep where
  text : List Char
  closes : Bool := false
  rest : List Char
  deriving Repr, DecidableEq

namespace StringStep

/-- The step that adds a character. -/
def char (c : Char) (rest : List Char) : StringStep :=
  { text := [c], rest }

/-- The step of a character that stands for itself. -/
def plain? (c : Char) (rest : List Char) : Option StringStep :=
  if isPlain c then some (char c rest) else none

/-- The step of an escape. -/
def escaped? (rest : List Char) : Option StringStep :=
  (escape? rest).map fun (c, rest) => char c rest

/-- The step of a line ending, or of a character that stands for itself. -/
def line? (c : Char) (rest : List Char) : Option StringStep :=
  match afterNewline? (c :: rest) with
  | some rest => some (char '\n' rest)
  | none => plain? c rest

/-- The step of quotes in a string of several lines: three of them close it, and
    up to two more before them are a part of it. -/
def quotes (quote : Char) (rest : List Char) : StringStep :=
  let run := (quote :: rest).takeWhile (· = quote)
  if run.length < 3 then char quote rest
  else
    let inside := min (run.length - 3) 2
    { text := List.replicate inside quote, closes := true, rest := rest.drop (inside + 2) }

/-- A step through a basic string. -/
def basic? : List Char → Option StringStep
  | [] => none
  | c :: rest =>
    if c = '"' then some { text := [], closes := true, rest }
    else if c = '\\' then escaped? rest
    else plain? c rest

/-- A step through a literal string. -/
def literal? : List Char → Option StringStep
  | [] => none
  | c :: rest =>
    if c = '\'' then some { text := [], closes := true, rest } else plain? c rest

/-- The step of a backslash in a basic string of several lines. -/
def fold? (rest : List Char) : Option StringStep :=
  match afterNewline? (rest.dropWhile isSpace) with
  | some rest => some { text := [], rest := skipSpaceLines rest }
  | none => escaped? rest

/-- A step through a basic string of several lines. -/
def multiBasic? : List Char → Option StringStep
  | [] => none
  | c :: rest =>
    if c = '"' then some (quotes c rest)
    else if c = '\\' then fold? rest
    else line? c rest

/-- A step through a literal string of several lines. -/
def multiLiteral? : List Char → Option StringStep
  | [] => none
  | c :: rest =>
    if c = '\'' then some (quotes c rest) else line? c rest

end StringStep

/-- Reads the rest of a string, after its opening quotes, in at most `budget`
    steps. A step takes at least one character, so the length of the text is
    enough. -/
def stringRest (step : List Char → Option StringStep) :
    (budget : Nat) → List Char → Option (List Char × List Char)
  | 0, _ => none
  | budget + 1, text => do
    let s ← step text
    if s.closes then some (s.text, s.rest)
    else
      let (more, rest) ← stringRest step budget s.rest
      some (s.text ++ more, rest)

/-- A text without a line ending at its beginning. -/
def dropNewline (text : List Char) : List Char :=
  (afterNewline? text).getD text

/-- Reads a string of one line. -/
def lineString? : List Char → Option (String × List Char)
  | [] => none
  | c :: rest =>
    let found :=
      if c = '"' then stringRest StringStep.basic? rest.length rest
      else if c = '\'' then stringRest StringStep.literal? rest.length rest
      else none
    found.map fun (text, rest) => (String.ofList text, rest)

/-- Reads a string of several lines, after its opening quotes. -/
def linesString? (step : List Char → Option StringStep) (text : List Char) :
    Option (String × List Char) :=
  let text := dropNewline text
  (stringRest step text.length text).map fun (text, rest) => (String.ofList text, rest)

/-- Reads a string of any kind. -/
def string? : List Char → Option (String × List Char)
  | '"' :: '"' :: '"' :: rest => linesString? StringStep.multiBasic? rest
  | '\'' :: '\'' :: '\'' :: rest => linesString? StringStep.multiLiteral? rest
  | text => lineString? text

end ContainerBuild.Toml
