import ContainerBuild.CommandLine.Matching

/-!
# Invocations

The commands of the program, and the *invocation* that a command line means.
-/

namespace ContainerBuild

/-- What is shown of a build file instead of building it. -/
inductive Inspection where
  /-- The definition that it resolves to. -/
  | resolved
  /-- Its evaluated text. -/
  | evaluated
  deriving Repr, DecidableEq

/-- A request to build targets. -/
structure BuildRequest where
  inspection : Option Inspection := none
  /-- The path of the build file. -/
  definition : Option String := none
  forcePull : Bool := false
  showVars : Bool := false
  targets : List String := []
  deriving Repr, DecidableEq

/-- A use of the configuration. -/
inductive ConfigAction where
  | showIt
  | showPath
  | create (force : Bool)
  | change (name value : String)
  deriving Repr, DecidableEq

/-- A command line interpreter. -/
inductive Shell where
  | bash
  | elvish
  | fish
  | powershell
  | zsh
  deriving Repr, DecidableEq

namespace Shell

/-- The name of a shell. -/
def name : Shell → String
  | .bash => "bash"
  | .elvish => "elvish"
  | .fish => "fish"
  | .powershell => "powershell"
  | .zsh => "zsh"

/-- All shells. -/
def all : List Shell :=
  [.bash, .elvish, .fish, .powershell, .zsh]

/-- The shell of a name. -/
def ofName? (name : String) : Option Shell :=
  all.find? (·.name == name)

end Shell

/-- What is to be done. -/
inductive Action where
  | build (request : BuildRequest)
  | clearCache (all : Bool)
  | config (action : Option ConfigAction)
  | version
  | completions (shell : Shell)
  deriving Repr, DecidableEq

/-- What a command line means. -/
structure Invocation where
  verbosity : Nat := 0
  /-- The path of the configuration. -/
  config : Option String := none
  /-- The directory with the client's own configuration. -/
  clientConfig : Option String := none
  action : Action
  deriving Repr, DecidableEq

namespace CommandLine

/-! ### The rules -/

/-- The command that builds targets. -/
def buildRule : CommandRule :=
  { name := "build"
    about := "Build targets from the build definition"
    options :=
      [{ name := "force-pull", short := some 'p', effect := .turnOn
         fallback := some "KILN_FORCE_PULL"
         about := "Always pull images, even those present locally" },
        { name := "show-vars", effect := .turnOn, about := "Print computed variable values" }]
    handedDown :=
      [{ name := "definition", short := some 'd', effect := .takePath
         fallback := some "KILN_DEFINITION", about := "Build definition file" }]
    operands := [{ name := "targets", many := true, about := "Targets to build" }]
    subcommands :=
      [{ name := "definition", about := "Print the resolved build definition as JSON" },
        { name := "definition-debug", about := "Print the evaluated build definition" }] }

/-- The command that manages the build cache. -/
def cacheRule : CommandRule :=
  { name := "cache"
    about := "Manage the builder cache"
    needsSubcommand := true
    subcommands :=
      [{ name := "clear"
         about := "Prune the builder cache"
         options :=
           [{ name := "all", short := some 'a', effect := .turnOn
              about := "Remove all cache, not only dangling entries" }] }] }

/-- The command that shows or changes the configuration. -/
def configRule : CommandRule :=
  { name := "config"
    about := "Show or edit configuration"
    subcommands :=
      [{ name := "show", about := "Show current configuration" },
        { name := "path", about := "Show configuration file path" },
        { name := "init"
          about := "Initialize default configuration"
          options :=
            [{ name := "force", short := some 'f', effect := .turnOn
               about := "Overwrite existing configuration" }] },
        { name := "set"
          about := "Set a configuration value"
          operands :=
            [{ name := "key", required := true, about := "Configuration key" },
              { name := "value", required := true, about := "Value to set" }] }] }

/-- The command that shows the version. -/
def versionRule : CommandRule :=
  { name := "version", about := "Print version information as JSON" }

/-- The command that writes completions. -/
def completionsRule : CommandRule :=
  { name := "completions"
    about := "Generate shell completions"
    operands :=
      [{ name := "shell", required := true, choices := some (Shell.all.map Shell.name)
         about := "Target shell" }] }

/-- The program. -/
def rule : CommandRule :=
  { name := "kiln"
    about := "Container build pipelines from a declarative definition"
    handedDown :=
      [{ name := "verbose", short := some 'v', effect := .count
         about := "Increase verbosity (-v info, -vv debug)" },
        { name := "config", short := some 'c', effect := .takePath
          fallback := some "KILN_CONFIG", about := "Configuration file path" },
        { name := "docker-config", effect := .takePath
          fallback := some "KILN_DOCKER_CONFIG"
          about := "Docker client config directory" }]
    needsSubcommand := true
    subcommands := [buildRule, cacheRule, configRule, versionRule, completionsRule] }

/-! ### The meaning -/

/-- The value of an option that takes one. -/
def value? (levels : List Level) (name : String) : Option String :=
  (values levels name).head?

/-- The build that levels ask for. -/
def buildRequest (levels : List Level) (inspection : Option Inspection) : BuildRequest :=
  { inspection
    definition := value? levels "definition"
    forcePull := isOn levels "force-pull"
    showVars := isOn levels "show-vars"
    targets := values levels "targets" }

/-- What levels ask to be done. -/
def action? (levels : List Level) : Option Action :=
  match levels.map (·.name) with
  | [_, "build"] => some (.build (buildRequest levels none))
  | [_, "build", "definition"] => some (.build (buildRequest levels (some .resolved)))
  | [_, "build", "definition-debug"] => some (.build (buildRequest levels (some .evaluated)))
  | [_, "cache", "clear"] => some (.clearCache (isOn levels "all"))
  | [_, "config"] => some (.config none)
  | [_, "config", "show"] => some (.config (some .showIt))
  | [_, "config", "path"] => some (.config (some .showPath))
  | [_, "config", "init"] => some (.config (some (.create (isOn levels "force"))))
  | [_, "config", "set"] => do
    return .config (some (.change (← value? levels "key") (← value? levels "value")))
  | [_, "version"] => some .version
  | [_, "completions"] => do
    return .completions (← Shell.ofName? (← value? levels "shell"))
  | _ => none

/-- The greatest verbosity that is told from a still greater one. -/
def verbosityLimit : Nat := 255

/-- The invocation that levels mean. -/
def invocation? (levels : List Level) : Option Invocation := do
  return {
    verbosity := min (values levels "verbose").length verbosityLimit
    config := value? levels "config"
    clientConfig := value? levels "docker-config"
    action := ← action? levels }

/-- The invocation that the words of a command line mean. -/
def parse (e : Environment) (words : List String) : Except Stop Invocation := do
  let levels ← matchWords e (.root rule) false {} words
  match invocation? levels with
  | some invocation => .ok invocation
  | none => .error .usage

end CommandLine

end ContainerBuild
