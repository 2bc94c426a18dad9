import ContainerBuild.Definition.Walk
import ContainerBuild.Dockerfile.Basic
import ContainerBuild.Dockerfile.VarValues

/-!
# Documents of targets and variables

The document of a target has a stage for every stage that the target refers to,
directly or not, in an order in which a stage comes after those it refers to.
A target with an output has a second stage right after its own, with nothing in
it but the output. Every stage sets the variables before its own environment.

The document of a variable has a single stage, whose secrets and SSH agent are
required, because a value computed without them would be wrong.
-/

namespace ContainerBuild

open Dockerfile (Document Instruction Mount Run)

namespace Dockerfile

/-- The mounts of a command: caches, then secrets, then the SSH agent. -/
def mounts (required : Bool) (caches : List CacheMount) (secrets : List SecretMount)
    (ssh : Bool) : List Mount :=
  caches.map (fun c => .cache c.id c.path) ++
    secrets.map (fun s => .secret s.id s.path required) ++
    (if ssh then [.ssh required] else [])

/-- The instruction that sets the working directory, if it is not the base's. -/
def workdirInstructions (directory : String) : List Instruction :=
  if directory.isEmpty then [] else [.workdir directory]

/-- The instructions that set environment variables. -/
def envInstructions (entries : List (String × String)) : List Instruction :=
  entries.map fun (key, value) => .env key value

/-- The name of the stage that gives out the output of a target. -/
def outputStageName (name : String) : String :=
  name ++ "-out"

end Dockerfile

open Dockerfile

/-- What the source of a copy is called in a document. -/
def Definition.sourceName (d : Definition) : CopySource → String
  | .vertex place => d.nameAt place
  | .image reference => reference

/-- The instruction that runs the command of a stage. -/
def Stage.runInstruction (s : Stage) (command : String) : Instruction :=
  .run { mounts := mounts false s.caches s.secrets s.ssh, network := s.network, command }

/-- The instructions of a stage, given the values of the variables. -/
def Definition.instructions (d : Definition) (values : VarValues) (s : Stage) :
    List Instruction :=
  workdirInstructions s.workdir ++
    envInstructions values.entries ++
    envInstructions s.env ++
    s.copies.map (fun c => .copy (c.source.map d.sourceName) c.src c.dst) ++
    s.command.toList.map s.runInstruction

/-- The stage that gives out an output. -/
def Output.stage (name : String) (o : Output) : Dockerfile.Stage :=
  { base := scratch
    label := some (outputStageName name)
    instructions := [.copy (some name) o.artifact "/"] }

/-- The stages of a target: its own, if it has one, and that of its output. -/
def Definition.stagesOf (d : Definition) (values : VarValues) (v : Vertex) :
    List Dockerfile.Stage :=
  match v.stage with
  | none => []
  | some s =>
    { base := s.base
      platform := s.platform
      label := some v.name
      instructions := d.instructions values s } ::
    s.output.toList.map (Output.stage v.name)

/-- The document of a target. -/
def Definition.document (d : Definition) (root : Vertex) (values : VarValues)
    (frontend : String) : Document :=
  { frontend, stages := (d.postorder d.referenced root).flatMap (d.stagesOf values) }

/-- The instructions of a variable's stage. -/
def Var.instructions (v : Var) : List Instruction :=
  workdirInstructions v.workdir ++
    envInstructions v.env ++
    v.copies.map (fun c => .copy c.source c.src c.dst) ++
    [.run { mounts := mounts true v.caches v.secrets v.ssh
            network := v.network
            command := v.command }]

/-- The document of a variable. -/
def Var.document (v : Var) (frontend : String) : Document :=
  { frontend
    stages := [{
      base := v.base
      platform := v.platform
      label := some v.name
      instructions := v.instructions }] }

end ContainerBuild
