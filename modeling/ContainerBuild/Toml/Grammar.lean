import ContainerBuild.Toml.Scalar
import ContainerBuild.Toml.Strings
import ContainerBuild.Toml.Tree

/-!
# Reading TOML

A text is a sequence of statements, each on a line of its own, between which
there are blank lines and comments. Only strings and arrays go over several
lines.

A reader takes a text to what it reads and to what follows that. Arrays and
inline tables may be nested up to a limit, and a key has a limited number of
parts.
-/

namespace ContainerBuild.Toml

/-- A reader of the beginning of a text. -/
abbrev Reader (α : Type) := List Char → Option (α × List Char)

/-- The greatest depth of nesting, and the greatest number of parts of a key. -/
def nestingLimit : Nat := 79

/-! ### Between values -/

/-- A text without the white space at the beginning of its line. -/
def skipSpaces (text : List Char) : List Char :=
  text.dropWhile isSpace

/-- A text without the blank lines and comments at its beginning, given whether it
    begins inside a comment. -/
def skipBlanks (comment : Bool) : List Char → List Char
  | [] => []
  | c :: rest =>
    if comment && isPlain c then skipBlanks true rest
    else if isSpace c || c = '\n' then skipBlanks false rest
    else if c = '#' then skipBlanks true rest
    else if c = '\r' then
      match rest with
      | '\n' :: rest => skipBlanks false rest
      | rest => c :: rest
    else c :: rest

/-- What follows a line that has nothing more on it but a comment. -/
def endLine? (text : List Char) : Option (List Char) :=
  let text := match skipSpaces text with
    | '#' :: comment => comment.dropWhile isPlain
    | text => text
  match text with
  | [] => some []
  | text => afterNewline? text

/-! ### Keys -/

/-- Whether a character may be a part of a key without quotes. -/
def isKeyCharacter (c : Char) : Bool :=
  c.isAlphanum || c = '_' || c = '-'

/-- Reads a part of a key. -/
def keyPart? : Reader String := fun text =>
  match text.span isKeyCharacter with
  | ([], _) => lineString? text
  | (part, rest) => some (String.ofList part, rest)

/-- Reads a key of at most `limit` parts. -/
def key? : (limit : Nat) → Reader (List String)
  | 0, _ => none
  | limit + 1, text => do
    let (part, text) ← keyPart? (skipSpaces text)
    match skipSpaces text with
    | '.' :: rest => (key? limit rest).map fun (parts, rest) => (part :: parts, rest)
    | rest => some ([part], rest)

/-! ### Values -/

/-- Reads the items of an array, up to the closing bracket. -/
def items? (value? : Reader Value) : (budget : Nat) → Reader (List Value)
  | 0, _ => none
  | budget + 1, text =>
    match skipBlanks false text with
    | ']' :: rest => some ([], rest)
    | text => do
      let (v, text) ← value? text
      match skipBlanks false text with
      | ',' :: rest => (items? value? budget rest).map fun (vs, rest) => (v :: vs, rest)
      | ']' :: rest => some ([v], rest)
      | _ => none

/-- Reads a key and its value. -/
def assignment? (value? : Reader Value) : Reader (List String × Value) := fun text => do
  let (key, text) ← key? nestingLimit text
  match text with
  | '=' :: rest => (value? (skipSpaces rest)).map fun (v, rest) => ((key, v), rest)
  | _ => none

/-- Reads assignments with commas between them, up to the closing brace. -/
def assignments? (value? : Reader Value) : (budget : Nat) → Reader (List (List String × Value))
  | 0, _ => none
  | budget + 1, text => do
    let (a, text) ← assignment? value? text
    match skipSpaces text with
    | ',' :: rest => (assignments? value? budget rest).map fun (as, rest) => (a :: as, rest)
    | '\x7d' :: rest => some ([a], rest)
    | _ => none

/-- Reads an array, after the opening bracket. -/
def array? (value? : Reader Value) : Reader Value := fun text =>
  (items? value? (text.length + 1) text).map fun (vs, rest) => (.array vs, rest)

/-- Reads an inline table, after the opening brace. -/
def inlineTable? (value? : Reader Value) : Reader Value := fun text =>
  match skipSpaces text with
  | '\x7d' :: rest => some (.table [], rest)
  | text => do
    let (assignments, rest) ← assignments? value? (text.length + 1) text
    return (.table (← inlineTableOf assignments), rest)

/-- Reads a value that holds no others. -/
def flat? : Reader Value := fun text =>
  match text with
  | [] => none
  | c :: _ =>
    if c = '"' || c = '\'' then (string? text).map fun (s, rest) => (.text s, rest)
    else scalar? text

/-- Reads a value nested at most `limit` deep. -/
def value? : (limit : Nat) → Reader Value
  | 0 => flat?
  | limit + 1 => fun text =>
    match text with
    | '[' :: rest => array? (value? limit) rest
    | '\x7b' :: rest => inlineTable? (value? limit) rest
    | text => flat? text

/-! ### Statements -/

/-- Reads the path in a header, up to the closing brackets. -/
def header? (close : List Char) : Reader (List String) := fun text => do
  let (path, text) ← key? nestingLimit text
  if close.isPrefixOf text then some (path, text.drop close.length) else none

/-- Reads a statement, without the end of its line. -/
def statement? : Reader Statement := fun text =>
  match text with
  | '[' :: '[' :: rest => (header? [']', ']'] rest).map fun (path, rest) => (.element path, rest)
  | '[' :: rest => (header? [']'] rest).map fun (path, rest) => (.table path, rest)
  | text =>
    (assignment? (value? nestingLimit) text).map fun ((key, v), rest) => (.assign key v, rest)

/-- Reads the statements of a text, at most `budget` of them. -/
def statements? : (budget : Nat) → List Char → Option (List Statement)
  | 0, _ => none
  | budget + 1, text =>
    match skipBlanks false text with
    | [] => some []
    | text => do
      let (s, text) ← statement? text
      let rest ← endLine? text
      return s :: (← statements? budget rest)

/-- A text without the byte order mark at its beginning. -/
def dropByteOrderMark : List Char → List Char
  | '\ufeff' :: rest => rest
  | text => text

/-- The table that a text describes. -/
def parse? (text : String) : Option Table := do
  let text := dropByteOrderMark text.toList
  tableOf (← statements? (text.length + 1) text)

end ContainerBuild.Toml
