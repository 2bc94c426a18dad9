import ContainerBuild.CommandLine.Help
import ContainerBuild.Config.Location
import ContainerBuild.Config.Toml
import ContainerBuild.Definition.Json
import ContainerBuild.Docker.Client
import ContainerBuild.Docker.SshAgent
import ContainerBuild.Program.Session

/-!
# Runs of the program

A run takes the words of a command line, in an environment, to an exit code, and
changes a session. Results are printed to the standard output; status lines, the
lines of commands and errors to the standard error.

The configuration is read before anything else is done, and a directory for the
client's configuration that the command line names takes the place of the one
in it, also where the configuration is shown or written again.
-/

namespace ContainerBuild

open SessionM

namespace Program

/-- The path of the build file, if no other is named. -/
def defaultDefinition : String := "kiln.json"

variable {σ : Type}

/-! ### Configurations -/

/-- Reads the configuration at a path; there need not be one. -/
def loadConfig (path : String) : SessionM σ Config := do
  let files ← files
  if files.hasPath path then ofExcept (Config.loadFile path (files.read? path))
  else return .default

/-- Writes a configuration to a path, with the directory that it lies in made if
    there is none. -/
def saveConfig (path : String) (c : Config) : SessionM σ Unit := do
  if let some directory := Path.parent? path then
    let (files, made) := (← files).makeDirectories directory
    setFiles files
    unless made do throw (.configDirectory directory)
  match (← files).write? path (Text.Utf8.encode c.render) with
  | some files => setFiles files
  | none => throw (.fileFailed (.writeConfig path))

/-- Writes the default configuration, over another one only if that is forced. -/
def createConfig (path : String) (force : Bool) : SessionM σ Unit := do
  if (← files).hasPath path && !force then
    status (.warning ("Config already exists at " ++ path))
    status (.remark "Use --force to overwrite")
  else
    saveConfig path .default
    status (.doneWith "Configuration initialized" path)

/-- Writes a configuration with one setting changed. -/
def changeConfig (path : String) (c : Config) (name value : String) : SessionM σ Unit := do
  let changed ← ofExcept (c.set name value)
  saveConfig path changed
  status (.done ("Set " ++ name ++ " = " ++ value))

/-- Uses the configuration at a path. -/
def configure (path : String) (c : Config) : ConfigAction → SessionM σ Unit
  | .showIt => printLine c.render
  | .showPath => printLine path
  | .create force => createConfig path force
  | .change name value => changeConfig path c name value

/-! ### Builds -/

/-- The client that a configuration runs. -/
def client (c : Config) : Docker.Client :=
  { executable := c.builder.executable, config := c.builder.clientConfig }

/-- The builder that a configuration uses on a host. -/
def builder (h : Docker.Host σ) (c : Config) : Builder (Session σ) :=
  (client c).builder (Session.hostOf h)

/-- Reads the definition in the build file at a path. -/
def loadDefinition (e : Environment) (c : Config) (path : String) : SessionM σ Definition := do
  let secrets ← ofExcept (c.expandedSecrets e)
  let file ← ofExcept (BuildFile.loadFile path ((← files).read? path))
  ofExcept (file.resolve secrets)

/-- What a build runs with. -/
def buildContext (h : Docker.Host σ) (e : Environment) (c : Config)
    (secrets : List SecretSource) (showVars : Bool) : BuildContext (Session σ) :=
  { builder := builder h c
    cancelled := fun s => h.cancelled s.host
    report := fun r s => s.tell (r.status showVars).render
    frontend := c.builder.frontend
    sshAgent := SshAgent.session e
    secrets }

/-- How the targets of a finished build are shown. -/
def builtText (targets : List String) : String :=
  if targets.isEmpty then defaultTarget else String.intercalate " " targets

/-- Builds the requested targets of the build file at a path. -/
def buildTargets (h : Docker.Host σ) (e : Environment) (c : Config) (path : String)
    (r : BuildRequest) : SessionM σ Unit := do
  let d ← loadDefinition e c path
  let secrets ← ofExcept (c.expandedSecrets e)
  let ctx := buildContext h e c secrets r.showVars
  act fun s =>
    let (result, progress) :=
      d.runBuild ctx r.targets (r.forcePull || c.builder.forcePull) s
    (result, progress.state)
  status (.doneWith "Build finished" (builtText r.targets))

/-- Builds, or shows the build file. -/
def build (h : Docker.Host σ) (e : Environment) (c : Config) (r : BuildRequest) :
    SessionM σ Unit := do
  let path := r.definition.getD defaultDefinition
  match r.inspection with
  | some .evaluated => printLine (← ofExcept (BuildFile.evaluateFile path ((← files).read? path)))
  | some .resolved => printLine (← loadDefinition e c path).render
  | none => buildTargets h e c path r

/-- Clears the build cache. -/
def clearCache (h : Docker.Host σ) (c : Config) (all : Bool) : SessionM σ Unit := do
  status (.heading "Clearing docker build cache")
  act ((builder h c).clearCache all)
  status (.done ((if all then "All" else "Dangling") ++ " build cache removed"))

/-! ### The program -/

/-- What is shown of the version. -/
def versionJson (c : Config) : Json.Value :=
  .record
    [("apiVersion", some (.ofString BuildFile.supportedVersion)),
     ("syntaxImage", some (.ofString c.builder.frontend)),
     ("version", some (.ofString CommandLine.versionNumber))]

/-- The path of the configuration of an invocation. -/
def configPath (e : Environment) (i : Invocation) : String :=
  i.config.getD (Config.defaultPath e)

/-- A configuration with what the command line says about it. -/
def override (i : Invocation) (c : Config) : Config :=
  match i.clientConfig with
  | some directory => { c with builder.clientConfig := some directory }
  | none => c

/-- Reads the configuration of an invocation and uses it. -/
def withConfig (e : Environment) (i : Invocation) (use : String → Config → SessionM σ Unit) :
    SessionM σ Unit := do
  let path := configPath e i
  let c ← loadConfig path
  use path (override i c)

/-- Does what an invocation asks for. Completions need no configuration. -/
def perform (h : Docker.Host σ) (e : Environment) (i : Invocation) : SessionM σ Unit :=
  match i.action with
  | .build r => withConfig e i fun _ c => build h e c r
  | .clearCache all => withConfig e i fun _ c => clearCache h c all
  | .config action => withConfig e i fun path c => configure path c (action.getD .showIt)
  | .version => withConfig e i fun _ c => printLine (versionJson c).toCompactString
  | .completions shell => update fun s => s.print (CommandLine.completionScript shell)

/-- The exit code of a run without errors. -/
def exitSuccess : Nat := 0

/-- The exit code of a run that ends with an error. -/
def exitFailure : Nat := 1

/-- The exit code of a run whose command line does not fit. -/
def exitUsage : Nat := 2

/-- A session with an error printed. -/
def tellError (s : Session σ) (e : Error) : Session σ :=
  let s := s.tell ("Error: " ++ e.message)
  match e.hint? with
  | some hint => s.tell ("Hint: " ++ hint)
  | none => s

/-- Does what an invocation asks for, and gives the exit code. -/
def execute (h : Docker.Host σ) (e : Environment) (i : Invocation) (s : Session σ) :
    Nat × Session σ :=
  match (perform h e i).run s with
  | (.ok (), s) => (exitSuccess, s)
  | (.error error, s) => (exitFailure, tellError s error)

/-- Runs the program. -/
def run (h : Docker.Host σ) (e : Environment) (words : List String) (s : Session σ) :
    Nat × Session σ :=
  match CommandLine.parse e words with
  | .ok i => execute h e i s
  | .error (.help path) => (exitSuccess, s.print (CommandLine.helpText path))
  | .error (.version path) => (exitSuccess, s.print (CommandLine.versionText path))
  | .error .usage =>
    (exitUsage, { s with console.stderr := s.console.stderr ++ CommandLine.usageText })

/-- The paths of the files that a run may look at. -/
def pathsOf (e : Environment) (words : List String) : List String :=
  match CommandLine.parse e words with
  | .error _ => []
  | .ok i =>
    match i.action with
    | .build r => [configPath e i, r.definition.getD defaultDefinition]
    | _ => [configPath e i]

end Program

end ContainerBuild
