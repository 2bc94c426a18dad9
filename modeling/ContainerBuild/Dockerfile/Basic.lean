import ContainerBuild.Text.Blank

/-!
# Dockerfiles

A *document* is a sequence of stages, each with a base and a list of
instructions. Its text is determined by it: every part is written in the order
in which the document has it.

The command of a `RUN` instruction is written as a here-document. Its delimiter
is the first of `EOF`, `EOF_1`, `EOF_2`, … that no line of the command equals,
not counting white space at the end of the line, so the here-document ends where
the command does.
-/

namespace ContainerBuild.Dockerfile

/-- A mount of a `RUN` instruction. -/
inductive Mount where
  | cache (id target : String)
  | secret (id target : String) (required : Bool)
  | ssh (required : Bool)
  deriving Repr, DecidableEq

/-- A command with the mounts and the network that it runs with. -/
structure Run where
  mounts : List Mount
  network : Option String
  command : String
  deriving Repr, DecidableEq

/-- An instruction of a stage. -/
inductive Instruction where
  | workdir (directory : String)
  | env (key value : String)
  /-- A copy from a stage or image, or else from the build context. -/
  | copy (source : Option String) (src dst : String)
  | run (r : Run)
  deriving Repr, DecidableEq

/-- A stage of a document. -/
structure Stage where
  base : String
  platform : Option String := none
  /-- The name by which other stages refer to this one. -/
  label : Option String := none
  instructions : List Instruction := []
  deriving Repr, DecidableEq

/-- A document, to be read by the frontend image `frontend`. -/
structure Document where
  frontend : String
  stages : List Stage := []
  deriving Repr, DecidableEq

/-- The base that is empty and no image. -/
def scratch : String := "scratch"

/-! ### Here-documents -/

/-- The delimiters that are tried, in this order. -/
def delimiter : Nat → String
  | 0 => "EOF"
  | n => "EOF_" ++ toString n

/-- The lines of a command that a delimiter must differ from. -/
def Run.endings (r : Run) : List String :=
  (Text.stringLines r.command).map Text.trimEnd

/-- The first delimiter that no line of the command equals. One more of them
    than the command has lines need to be tried. -/
def Run.delimiter (r : Run) : String :=
  let taken := r.endings
  match (List.range (taken.length + 1)).find? fun n => !taken.contains (Dockerfile.delimiter n) with
  | some n => Dockerfile.delimiter n
  | none => Dockerfile.delimiter 0

/-! ### Text -/

/-- How a character is written in the value of a variable, between double
    quotes. A value has no line breaks, so they become spaces. -/
def quoteChar (c : Char) : List Char :=
  if c = '\\' ∨ c = '"' ∨ c = '$' then ['\\', c]
  else if c = '\n' ∨ c = '\r' then [' ']
  else [c]

/-- How the value of a variable is written between double quotes. -/
def quoteValue (value : String) : String :=
  String.ofList (value.toList.flatMap quoteChar)

/-- The mark of a mount without which the build fails. -/
def requiredMark (required : Bool) : String :=
  if required then ",required=true" else ""

/-- The text of a mount. -/
def Mount.render : Mount → String
  | .cache id target => "type=cache,id=" ++ id ++ ",target=" ++ target
  | .secret id target required =>
    "type=secret,id=" ++ id ++ ",target=" ++ target ++ requiredMark required
  | .ssh required => "type=ssh" ++ requiredMark required

/-- What stands between the options of a `RUN` instruction. -/
def continuation : String := " \\\n    "

/-- The options of a `RUN` instruction, of which the here-document is the last. -/
def Run.options (r : Run) : List String :=
  r.mounts.map (fun m => "--mount=" ++ m.render) ++
    r.network.toList.map (fun n => "--network=" ++ n) ++ ["<<" ++ r.delimiter]

/-- The lines of the here-document. A line break at the end of the command is
    that of the here-document. -/
def Run.body (r : Run) : String :=
  String.ofList (Text.dropEndWhile (· = '\n') r.command.toList)

/-- The text of a `RUN` instruction. -/
def Run.render (r : Run) : String :=
  "RUN " ++ String.intercalate continuation r.options ++ "\n" ++ r.body ++ "\n" ++ r.delimiter

/-- The option that names the source of a copy. -/
def sourceOption : Option String → String
  | some source => "--from=" ++ source ++ " "
  | none => ""

/-- The text of an instruction. -/
def Instruction.render : Instruction → String
  | .workdir directory => "WORKDIR " ++ directory
  | .env key value => "ENV " ++ key ++ "=\"" ++ quoteValue value ++ "\""
  | .copy source src dst => "COPY " ++ sourceOption source ++ src ++ " " ++ dst
  | .run r => r.render

/-- The option that names the platform of a stage. -/
def platformOption : Option String → String
  | some platform => "--platform=" ++ platform ++ " "
  | none => ""

/-- The part of a stage's first line that names the stage. -/
def labelPart : Option String → String
  | some label => " AS " ++ label
  | none => ""

/-- The text of a stage. -/
def Stage.render (s : Stage) : String :=
  "FROM " ++ platformOption s.platform ++ s.base ++ labelPart s.label ++ "\n" ++
    String.join (s.instructions.map fun i => i.render ++ "\n")

/-- The text of a document. -/
def Document.render (d : Document) : String :=
  "# syntax=" ++ d.frontend ++ "\n" ++ String.join (d.stages.map fun s => "\n" ++ s.render)

end ContainerBuild.Dockerfile
