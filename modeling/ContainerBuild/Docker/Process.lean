import ContainerBuild.Docker.Capture
import ContainerBuild.Error

/-!
# Running commands

Commands run on a *host*, which is given by what it does to a state of its own.
`run` starts a command, hands every line that it writes to the host, and says
how it ended. A build that has been cancelled starts no command. `run` looks at
that only before the start: whether a command is interrupted because the build is
cancelled while it runs is decided by the host, which tells so by how the command
ends (`Ending.blocked`).
-/

namespace ContainerBuild.Docker

/-- A command to be started. -/
structure Command where
  executable : String
  arguments : List String
  /-- What the command reads, if it reads anything. -/
  input : Option String := none
  /-- The variables that are set for it. -/
  environment : List (String × String) := []
  deriving Repr, DecidableEq

/-- How messages write a command. -/
def Command.line (c : Command) : String :=
  c.executable ++ " " ++ String.intercalate " " c.arguments

/-- Whether the system can be asked to start a command: its words end at their
    first zero character, so they must not have any. -/
def Command.isStartable (c : Command) : Bool :=
  (c.executable :: c.arguments).all fun word => !word.toList.contains '\x00'

/-- How a command ends. -/
inductive Ending where
  | exited (code : Int)
  /-- A signal ended it. -/
  | killed
  /-- It goes on until it is interrupted, and so is cancelled. -/
  | blocked
  deriving Repr, DecidableEq

/-- What a command does once it has been started. -/
structure Reply where
  stdout : List UInt8 := []
  stderr : List UInt8 := []
  /-- The order in which its lines become ready. -/
  turns : List Pipe := []
  ending : Ending := .exited 0
  deriving Repr, DecidableEq

/-- The lines that a command writes, in the order in which they are read. -/
def Reply.lines (r : Reply) : List PipeLine :=
  interleave r.turns (streamLines r.stdout) (streamLines r.stderr)

/-- The outcome of starting a command. -/
inductive Launch where
  /-- There is no such program. -/
  | notFound
  | ran (reply : Reply)
  deriving Repr, DecidableEq

/-- What commands run on, with states `σ`. -/
structure Host (σ : Type) where
  launch : Command → σ → Launch × σ
  /-- Takes notice of a line that a command wrote. -/
  echo : String → σ → σ
  /-- Whether the build has been cancelled. -/
  cancelled : σ → Bool

/-- A command that has ended. -/
structure Finished where
  /-- None if a signal ended it. -/
  code : Option Int := none
  stdout : String := ""
  stderr : String := ""
  deriving Repr, DecidableEq

namespace Finished

/-- Whether a command succeeded. -/
def succeeded (f : Finished) : Bool :=
  f.code == some 0

/-- What a command says about its failure. -/
def diagnosis (f : Finished) : String :=
  if f.stderr.isEmpty then f.stdout else f.stderr

/-- A command that succeeded; if it failed, `line` is how messages write it. -/
def result (f : Finished) (line : String) : Except Error Finished :=
  if f.succeeded then .ok f
  else .error (.builderFailed line f.diagnosis (f.code.getD (-1)))

end Finished

/-- How a command ended that has written some lines. -/
def Ending.finish (lines : List PipeLine) : Ending → Except Error Finished
  | .exited code => .ok ⟨some code, captured .out lines, captured .err lines⟩
  | .killed => .ok ⟨none, captured .out lines, captured .err lines⟩
  | .blocked => .error .cancelled

/-- Runs a command, with its lines handed to the host if they are to be `echoed`. -/
def Host.run {σ : Type} (h : Host σ) (echoed : Bool) (c : Command) (s : σ) :
    Except Error Finished × σ :=
  if h.cancelled s then (.error .cancelled, s)
  else if !c.isStartable then (.error (.commandNotStarted c.line), s)
  else
    let (launch, s) := h.launch c s
    match launch with
    | .notFound => (.error (.commandNotStarted c.line), s)
    | .ran reply =>
      let lines := reply.lines
      let s := if echoed then lines.foldl (fun s line => h.echo line.text s) s else s
      (reply.ending.finish lines, s)

end ContainerBuild.Docker
