import ContainerBuild.Docker.Process
import ContainerBuild.Files.Tree
import ContainerBuild.Program.Status

/-!
# Sessions

A *session* is what a run of the program changes: the files, what has been
printed, and the state of the host on which commands run.
-/

namespace ContainerBuild

/-- What has been printed. -/
structure Console where
  stdout : String := ""
  stderr : String := ""
  deriving Repr, DecidableEq

/-- A session on a host with states `σ`. -/
structure Session (σ : Type) where
  host : σ
  files : FileTree
  console : Console := {}

namespace Session

variable {σ : Type}

/-- A session with a text printed to the standard output. -/
def print (s : Session σ) (text : String) : Session σ :=
  { s with console.stdout := s.console.stdout ++ text }

/-- A session with a line printed to the standard error. -/
def tell (s : Session σ) (line : String) : Session σ :=
  { s with console.stderr := s.console.stderr ++ line ++ "\n" }

/-- The host of a session, on which the lines of commands are printed. -/
def hostOf (h : Docker.Host σ) : Docker.Host (Session σ) where
  launch c s :=
    let (launch, host) := h.launch c s.host
    (launch, { s with host })
  echo line s := { s with host := h.echo line s.host }.tell line
  cancelled s := h.cancelled s.host

end Session

/-- A part of a run, which may end it with an error. -/
abbrev SessionM (σ : Type) := ExceptT Error (StateM (Session σ))

namespace SessionM

variable {σ α : Type}

/-- Does something to the session. -/
def update (f : Session σ → Session σ) : SessionM σ Unit :=
  ExceptT.mk fun s => (.ok (), f s)

/-- Does something to the session that has a result. -/
def act (f : Session σ → Except Error α × Session σ) : SessionM σ α :=
  ExceptT.mk f

/-- Prints a line to the standard output. -/
def printLine (text : String) : SessionM σ Unit :=
  update fun s => s.print (text ++ "\n")

/-- Prints a status line. -/
def status (line : Status) : SessionM σ Unit :=
  update fun s => s.tell line.render

/-- The files. -/
def files : SessionM σ FileTree :=
  ExceptT.mk fun s => (.ok s.files, s)

/-- Replaces the files. -/
def setFiles (files : FileTree) : SessionM σ Unit :=
  update fun s => { s with files }

end SessionM

end ContainerBuild
