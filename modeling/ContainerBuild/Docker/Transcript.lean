import ContainerBuild.Number.Power
import ContainerBuild.Text.Blank
import ContainerBuild.Text.Digit
import ContainerBuild.Text.Lines
import ContainerBuild.Text.Word

/-!
# Build transcripts

The builder's plain progress output has a header for every step, and under it
the step's lines, all numbered by the step:

    #6 [version 2/2] RUN <<EOF
    #6 sha256:2c5e0b9b6cbd
    #6 0.412 v1.4.2
    #6 DONE 0.5s

`output` finds what a command printed: it looks for the first `RUN` header whose
progress is complete, passes over the line after it, and takes the payload of
every line up to the one marked `DONE`.
-/

namespace ContainerBuild.Transcript

/-- Why a transcript has no output. -/
inductive Fault where
  /-- A `RUN` header has a progress that is no fraction. -/
  | malformedProgress (progress : String)
  /-- A line of the output has no number or no mark. -/
  | malformedLine (line : String)
  /-- The transcript ends at the header. -/
  | missingIntermediateLine
  /-- The transcript ends within the output collected so far. -/
  | unterminated (collected : String)
  /-- No `RUN` header has a complete progress. -/
  | noRunStep
  deriving Repr, DecidableEq

/-- The text of a fault. -/
def Fault.message : Fault → String
  | .malformedProgress progress => "incorrect progress format " ++ progress
  | .malformedLine line => "invalid output line format: " ++ line
  | .missingIntermediateLine => "failed to skip line with intermediate container hash"
  | .unterminated collected => "output is not terminated by DONE, collected: " ++ collected
  | .noRunStep => "command output is not fully parsed: no completed RUN step found"

/-! ### Lines -/

/-- What follows the number of a step, `#` and digits and a space. -/
def afterNumber? : List Char → Option (List Char)
  | '#' :: rest =>
    match rest.span Text.isDecimalDigit with
    | (_ :: _, ' ' :: rest) => some rest
    | _ => none
  | _ => none

/-- A line of a step: its mark, such as a time, and the text after it. -/
structure StepLine where
  mark : List Char
  payload : Option (List Char)
  deriving Repr, DecidableEq

/-- Reads a line of a step. -/
def stepLine? (line : List Char) : Option StepLine := do
  let rest ← afterNumber? line
  match rest.span fun c => !Text.isBlank c with
  | ([], _) => none
  | (mark, []) => some ⟨mark, none⟩
  | (mark, ' ' :: payload) => some ⟨mark, some payload⟩
  | _ => none

/-- The header of a step: its progress and the instruction it runs. -/
structure Header where
  progress : List Char
  verb : List Char
  deriving Repr, DecidableEq

/-- A capital letter of ASCII. -/
def isCapital (c : Char) : Bool :=
  'A' ≤ c && c ≤ 'Z'

/-- The word of capital letters at the beginning of a text, if nothing that
    could be part of the word follows it. -/
def verb? (text : List Char) : Option (List Char) :=
  match text.span isCapital with
  | ([], _) => none
  | (verb, []) => some verb
  | (verb, c :: _) => if Text.isWordCharacter c then none else some verb

/-- Reads the header of a step. The bracket holds words, of which the last one
    is the progress: the one in which the first closing bracket stands, up to a
    closing bracket before a space. -/
def header? (line : List Char) : Option Header := do
  let rest ← afterNumber? line
  match rest with
  | '[' :: rest =>
    let (before, rest) := rest.span (· ≠ ']')
    let (closing, rest) := rest.span fun c => !Text.isBlank c
    let start := (before.reverse.takeWhile fun c => !Text.isBlank c).reverse
    match closing.getLast?, start ++ closing.dropLast, rest with
    | some ']', c :: progress, ' ' :: rest =>
      (verb? rest).map fun verb => ⟨c :: progress, verb⟩
    | _, _, _ => none
  | _ => none

/-! ### Progress -/

/-- The largest count in a progress. -/
def countLimit : Nat := powerOfTwo 32 - 1

/-- A count: ASCII digits, with a plus sign before them or not. -/
def count? (text : List Char) : Option Nat := do
  let digits := match text with
    | '+' :: digits => digits
    | digits => digits
  let n ← Text.decimal? digits
  if n ≤ countLimit then some n else none

/-- Whether a progress `done/total` is complete; none if it is no fraction. -/
def completed? (progress : List Char) : Option Bool := do
  let (done, total) ← Text.splitFirst '/' progress
  return (← count? done) == (← count? total)

/-! ### Output -/

/-- The mark of the last line of a step. -/
def doneMark : List Char := ['D', 'O', 'N', 'E']

/-- The instruction whose output is looked for. -/
def runVerb : List Char := ['R', 'U', 'N']

/-- The output lines, in one text. -/
def joined (collected : List (List Char)) : String :=
  String.ofList (List.intercalate ['\n'] collected)

/-- Takes the payloads of lines up to the mark of the last one, after those
    collected before (latest first). -/
def collect (collected : List (List Char)) : List (List Char) → Except Fault String
  | [] => .error (.unterminated (joined collected.reverse))
  | line :: rest =>
    match stepLine? line with
    | none => .error (.malformedLine (String.ofList line))
    | some ⟨mark, payload⟩ =>
      if mark = doneMark then .ok (joined collected.reverse)
      else collect (payload.getD [] :: collected) rest

/-- Finds the output in the lines of a transcript. -/
def search : List (List Char) → Except Fault String
  | [] => .error .noRunStep
  | line :: rest =>
    match header? line with
    | none => search rest
    | some ⟨progress, verb⟩ =>
      if verb = runVerb then
        match completed? progress with
        | none => .error (.malformedProgress (String.ofList progress))
        | some false => search rest
        | some true =>
          match rest with
          | [] => .error .missingIntermediateLine
          | _ :: rest => collect [] rest
      else search rest

/-- The output of the first complete `RUN` step of a transcript. -/
def output (transcript : String) : Except Fault String :=
  search (Text.lines transcript.toList)

end ContainerBuild.Transcript
