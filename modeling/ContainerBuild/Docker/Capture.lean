import ContainerBuild.Text.Lines
import ContainerBuild.Text.Utf8

/-!
# Captured output

A command writes to two pipes. Each is read line by line, and the lines of the
two alternate in whatever order they become ready in: `interleave` lists them by
*turns*, each of which takes the next line of one pipe. The text captured from a
pipe is made of its lines, with plain line endings.
-/

namespace ContainerBuild.Docker

/-- Where a command writes to. -/
inductive Pipe where
  /-- The standard output. -/
  | out
  /-- The standard error. -/
  | err
  deriving Repr, DecidableEq

/-- A line that was read from a pipe. -/
structure PipeLine where
  pipe : Pipe
  text : String
  deriving Repr, DecidableEq

/-- The byte of a line feed. -/
def feedByte : UInt8 := 0x0A

/-- The byte of a carriage return. -/
def returnByte : UInt8 := 0x0D

/-- The lines of what was written to a pipe. Each is decoded on its own. -/
def streamLines (bytes : List UInt8) : List String :=
  (Text.linesFrom feedByte returnByte [] bytes).map fun line =>
    String.ofList (Text.Utf8.decodeLossy line)

/-- The lines of the two pipes, by turns. A turn of a pipe without further lines
    is void, and the lines that remain after the last turn are read at the end,
    first those of the standard error. -/
def interleave : List Pipe → (out err : List String) → List PipeLine
  | [], out, err => err.map (⟨.err, ·⟩) ++ out.map (⟨.out, ·⟩)
  | .out :: turns, line :: out, err => ⟨.out, line⟩ :: interleave turns out err
  | .out :: turns, [], err => interleave turns [] err
  | .err :: turns, out, line :: err => ⟨.err, line⟩ :: interleave turns out err
  | .err :: turns, out, [] => interleave turns out []

/-- The text captured from a pipe. -/
def captured (pipe : Pipe) (lines : List PipeLine) : String :=
  String.join ((lines.filter (·.pipe = pipe)).map fun line => line.text ++ "\n")

end ContainerBuild.Docker
