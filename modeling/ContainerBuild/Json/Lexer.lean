import ContainerBuild.Json.Basic
import ContainerBuild.Text.Digit

/-!
# Tokens of JSON

The lexer reads a text one character at a time: `Mode` says inside which token
it stands, and `step` gives the tokens that a character completes. A number is
completed by the character after it, which is then read as the beginning of
something else, so one character can complete two tokens.

White space is the space, the tab, the line feed and the carriage return.
Inside a string every character from U+0020 on stands for itself, and a `\u`
escape needs four hexadecimal digits, in any case; whether code units pair up
is not looked at.
-/

namespace ContainerBuild.Json

/-- The tokens of JSON. -/
inductive Token where
  | openArray
  | closeArray
  | openObject
  | closeObject
  | comma
  | colon
  | null
  | bool (b : Bool)
  | number (n : Number)
  | text (t : RawText)
  deriving Repr, DecidableEq

namespace Lexer

/-- How far a number has been read. -/
inductive Stage where
  /-- After the minus sign. -/
  | minus
  /-- After a leading zero, which stands alone before the point. -/
  | zero
  | whole
  /-- After the point. -/
  | point
  | fraction
  /-- After the letter of the exponent. -/
  | mark
  /-- After the sign of the exponent. -/
  | sign
  | exponent
  deriving Repr, DecidableEq

/-- Whether a number may end at a stage. -/
def Stage.final : Stage → Bool
  | .zero | .whole | .fraction | .exponent => true
  | .minus | .point | .mark | .sign => false

/-- Inside which token the lexer stands. -/
inductive Mode where
  /-- Between tokens. -/
  | between
  /-- Inside a word, of which the letters `rest` must follow. -/
  | word (rest : List Char) (token : Token)
  /-- Inside a number, its digits latest first. -/
  | number (stage : Stage) (n : Number)
  /-- Inside a string, its pieces latest first. -/
  | text (done : RawText)
  /-- After a backslash. -/
  | escape (done : RawText)
  /-- Inside a `\u` escape that lacks `missing + 1` digits. -/
  | unit (done : RawText) (missing : Nat) (code : Nat)
  deriving Repr, DecidableEq

/-- The character that a backslash and a letter stand for. -/
def shortEscape? : Char → Option Char
  | '"' => some '"'
  | '\\' => some '\\'
  | '/' => some '/'
  | 'b' => some '\x08'
  | 'f' => some '\x0c'
  | 'n' => some '\n'
  | 'r' => some '\r'
  | 't' => some '\t'
  | _ => none

/-- White space between tokens. -/
def isSpace (c : Char) : Bool :=
  c = ' ' || c = '\t' || c = '\n' || c = '\r'

/-- A number whose digits were collected latest first. -/
def finish (n : Number) : Token :=
  .number { n with
    whole := n.whole.reverse
    fraction := n.fraction.reverse
    exponent := n.exponent.map fun (negative, digits) => (negative, digits.reverse) }

/-- A character between tokens. -/
def stepBetween (c : Char) : Option (List Token × Mode) :=
  if isSpace c then some ([], .between)
  else match c with
    | '[' => some ([.openArray], .between)
    | ']' => some ([.closeArray], .between)
    | '\x7b' => some ([.openObject], .between)
    | '\x7d' => some ([.closeObject], .between)
    | ',' => some ([.comma], .between)
    | ':' => some ([.colon], .between)
    | '"' => some ([], .text [])
    | 'n' => some ([], .word ['u', 'l', 'l'] .null)
    | 't' => some ([], .word ['r', 'u', 'e'] (.bool true))
    | 'f' => some ([], .word ['a', 'l', 's', 'e'] (.bool false))
    | '-' => some ([], .number .minus { negative := true, whole := [] })
    | '0' => some ([], .number .zero { whole := [0] })
    | _ => (Text.digit? c).map fun d => ([], .number .whole { whole := [d] })

/-- A character that cannot be part of the number before it. -/
def leaveNumber (stage : Stage) (n : Number) (c : Char) : Option (List Token × Mode) :=
  if stage.final then
    (stepBetween c).map fun (tokens, mode) => (finish n :: tokens, mode)
  else none

/-- A character inside a number. -/
def stepNumber (stage : Stage) (n : Number) (c : Char) : Option (List Token × Mode) :=
  match stage, Text.digit? c with
  | .minus, some d =>
    some ([], .number (if d = 0 then .zero else .whole) { n with whole := [d] })
  | .zero, some _ => none
  | .whole, some d => some ([], .number .whole { n with whole := d :: n.whole })
  | .point, some d => some ([], .number .fraction { n with fraction := [d] })
  | .fraction, some d => some ([], .number .fraction { n with fraction := d :: n.fraction })
  | .mark, some d => some ([], .number .exponent { n with exponent := some (false, [d]) })
  | .sign, some d | .exponent, some d =>
    some ([], .number .exponent
      { n with exponent := n.exponent.map fun (negative, digits) => (negative, d :: digits) })
  | .zero, none | .whole, none =>
    if c = '.' then some ([], .number .point n)
    else if c = 'e' ∨ c = 'E' then some ([], .number .mark n)
    else leaveNumber stage n c
  | .fraction, none =>
    if c = 'e' ∨ c = 'E' then some ([], .number .mark n)
    else leaveNumber stage n c
  | .mark, none =>
    if c = '+' then some ([], .number .sign { n with exponent := some (false, []) })
    else if c = '-' then some ([], .number .sign { n with exponent := some (true, []) })
    else none
  | .minus, none | .point, none | .sign, none | .exponent, none => leaveNumber stage n c

/-- The tokens that a character completes, and where the lexer then stands. -/
def step : Mode → Char → Option (List Token × Mode)
  | .between, c => stepBetween c
  | .word [] _, _ => none
  | .word [last] token, c => if c = last then some ([token], .between) else none
  | .word (next :: rest) token, c => if c = next then some ([], .word rest token) else none
  | .number stage n, c => stepNumber stage n c
  | .text done, c =>
    if c = '"' then some ([.text done.reverse], .between)
    else if c = '\\' then some ([], .escape done)
    else if c.toNat < 0x20 then none
    else some ([], .text (.char c :: done))
  | .escape done, c =>
    if c = 'u' then some ([], .unit done 3 0)
    else (shortEscape? c).map fun e => ([], .text (.char e :: done))
  | .unit done missing code, c =>
    (Text.hexDigit? c).map fun d =>
      let code := code * 16 + d
      match missing with
      | 0 => ([], .text (.unit code :: done))
      | missing + 1 => ([], .unit done missing code)

/-- The tokens that the end of the text completes. -/
def atEnd : Mode → Option (List Token)
  | .between => some []
  | .number stage n => if stage.final then some [finish n] else none
  | .word .. | .text .. | .escape .. | .unit .. => none

/-- The tokens of a text from some mode on, after the tokens `done` (latest
    first). -/
def run (done : List Token) : Mode → List Char → Option (List Token)
  | mode, [] => (atEnd mode).map fun tokens => (tokens.reverse ++ done).reverse
  | mode, c :: rest =>
    match step mode c with
    | some (tokens, next) => run (tokens.reverse ++ done) next rest
    | none => none

end Lexer

/-- The tokens of a text, if it is made of tokens. -/
def tokens? (text : List Char) : Option (List Token) :=
  Lexer.run [] .between text

end ContainerBuild.Json
