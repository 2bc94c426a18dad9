import ContainerBuild.Build.Builder
import ContainerBuild.Docker.Listing
import ContainerBuild.Docker.Process

/-!
# The docker client

A builder that runs the docker command line client. A document is handed over on
the client's standard input, with the working directory as build context, and
the value of a variable is read from the transcript that the client writes to
its standard error.
-/

namespace ContainerBuild.Docker

open Dockerfile (Document)

/-- A docker command line client. -/
structure Client where
  executable : String
  /-- The directory with the client's own configuration. -/
  config : Option String := none
  deriving Repr, DecidableEq

namespace Client

/-- The arguments that every command begins with. -/
def commonArguments (client : Client) : List String :=
  match client.config with
  | some path => ["--config", path]
  | none => []

/-- The arguments that hand over an SSH agent. -/
def agentArguments : Option String → List String
  | some agent => ["--ssh", "default=" ++ agent]
  | none => []

/-- The arguments that hand over a secret. -/
def secretArguments (s : SecretSource) : List String :=
  ["--secret", "id=" ++ s.id ++ ",src=" ++ s.path]

/-- The arguments that hand over an SSH agent and secrets. -/
def accessArguments (agent : Option String) (secrets : List SecretSource) : List String :=
  agentArguments agent ++ secrets.flatMap secretArguments

/-- The arguments that say where the output goes. -/
def outputArguments : Option String → List String
  | some directory => ["--output", directory]
  | none => []

/-- The arguments that have the document read from the standard input. -/
def documentArguments : List String := ["-f-", "."]

/-- The arguments of a build. -/
def buildArguments (client : Client) (r : StageRequest) : List String :=
  client.commonArguments ++ ["builder", "build"] ++ accessArguments r.sshAgent r.secrets ++
    ["--target", r.stage] ++ outputArguments r.output ++ documentArguments

/-- The arguments of a build that shows the output of a stage's command. -/
def valueArguments (client : Client) (r : ValueRequest) : List String :=
  client.commonArguments ++ ["builder", "build", "--progress", "plain"] ++
    (if r.useCache then [] else ["--no-cache"]) ++ accessArguments r.sshAgent r.secrets ++
    ["--target", r.stage] ++ documentArguments

/-- How the client is asked to list an image. -/
def listFormat : String :=
  "\x7b\x7b.Repository\x7d\x7d:\x7b\x7b.Tag\x7d\x7d"

/-- The arguments that list images. -/
def listArguments (client : Client) (images : List String) : List String :=
  client.commonArguments ++ ["image", "ls"] ++
    images.flatMap (fun image => ["--filter", "reference=" ++ image]) ++ ["--format", listFormat]

/-- The arguments that pull an image. -/
def pullArguments (client : Client) (image : String) : List String :=
  client.commonArguments ++ ["pull", image]

/-- The arguments that clear the build cache. -/
def pruneArguments (client : Client) (all : Bool) : List String :=
  client.commonArguments ++ ["builder", "prune", "-f"] ++ (if all then ["-a"] else [])

/-- The command with some arguments, which reads `input`. -/
def command (client : Client) (arguments : List String) (input : Option String) : Command :=
  { executable := client.executable
    arguments
    input
    environment := [("DOCKER_BUILDKIT", "1")] }

/-! ### Results -/

/-- The value of a variable, from the end of the command that computes it. -/
def readValue (name line : String) (f : Finished) : Except Error String := do
  let f ← f.result line
  (Transcript.output f.stderr).mapError (.varUnreadable name)

/-- The end of the command that pulls an image. -/
def readPull (image : String) (f : Finished) : Except Error Unit :=
  if f.succeeded then .ok () else .error (.pullFailed image (Text.trimEnd f.stderr))

/-- Those of some images that are present, from the end of the command that
    lists them. -/
def readListing (images : List String) (line : String) (f : Finished) :
    Except Error (List String) := do
  let f ← f.result line
  return presentImages f.stdout images

/-! ### The builder -/

section
variable {σ α : Type} (h : Host σ)

/-- Runs a command and reads how it ended. -/
def perform (echoed : Bool) (c : Command) (read : Finished → Except Error α) (s : σ) :
    Except Error α × σ :=
  let (finished, s) := h.run echoed c s
  (finished.bind read, s)

/-- The end of a command of which nothing but its success matters. -/
def readSuccess (line : String) (f : Finished) : Except Error Unit :=
  (f.result line).map fun _ => ()

/-- The builder that runs the client on a host. The host takes notice of what
    builds, pulls and the clearing of the cache write. -/
def builder (client : Client) : Builder σ where
  listImages images s :=
    if images.isEmpty then (.ok [], s)
    else
      let c := client.command (client.listArguments images) none
      perform h false c (readListing images c.line) s
  pullImage image s :=
    perform h true (client.command (client.pullArguments image) none) (readPull image) s
  value document r s :=
    let c := client.command (client.valueArguments r) (some document.render)
    perform h false c (readValue r.stage c.line) s
  build document r s :=
    let c := client.command (client.buildArguments r) (some document.render)
    perform h true c (readSuccess c.line) s
  clearCache all s :=
    let c := client.command (client.pruneArguments all) none
    perform h true c (readSuccess c.line) s

end

end Client

end ContainerBuild.Docker
