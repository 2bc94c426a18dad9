import ContainerBuild.BuildFile.Loading
import ContainerBuild.Config.Setting
import ContainerBuild.Definition.Trace
import ContainerBuild.Docker.Transcript

/-!
# Errors

Everything that can go wrong, as its cause. `Error.message` is the text that is
shown, and `Error.hint?` the advice that follows it for some of the causes.
-/

namespace ContainerBuild

/-- The two kinds of names that a build file declares. -/
inductive NameKind where
  | target
  | var
  deriving Repr, DecidableEq

/-- How a message calls a kind of names. -/
def NameKind.text : NameKind → String
  | .target => "target"
  | .var => "var"

/-- What asks for a secret. -/
structure SecretOwner where
  kind : NameKind
  name : String
  deriving Repr, DecidableEq

/-- How a message calls what asks for a secret. -/
def SecretOwner.text (owner : SecretOwner) : String :=
  match owner.kind with
  | .target => owner.name ++ " stage"
  | .var => owner.name ++ " var"

/-- A use of a file. -/
inductive FileUse where
  | readDefinition (path : String)
  | readConfig (path : String)
  | writeConfig (path : String)
  deriving Repr, DecidableEq

/-- How a message calls a use of a file. -/
def FileUse.text : FileUse → String
  | .readDefinition path => "reading build definition " ++ path
  | .readConfig path => "reading config from " ++ path
  | .writeConfig path => "writing config to " ++ path

/-- The target that is built when none is named. -/
def defaultTarget : String := "all"

/-- What went wrong. -/
inductive Error where
  /-- A configuration file has another form than configurations have. -/
  | configInvalid (path : String)
  /-- The directory of a configuration file cannot be made. -/
  | configDirectory (path : String)
  | unsupportedVersion (found : String)
  | definitionInvalid (path : String) (fault : BuildFile.LoadFault)
  | targetNotFound (name : String)
  | unknownDependency (target dependency : String)
  /-- A target was reached again from itself. -/
  | dependencyCycle (target : String) (trace : Trace)
  | unknownSecret (owner : SecretOwner) (id : String)
  | duplicateName (kind : NameKind) (name : String)
  /-- A target has neither a stage nor dependencies. -/
  | emptyTarget (name : String)
  /-- A target has a stage that starts from nothing. -/
  | missingBase (name : String)
  /-- A command of the builder failed; the code is -1 if a signal ended it. -/
  | builderFailed (command output : String) (code : Int)
  | pullFailed (image reason : String)
  /-- The value of a variable could not be computed. -/
  | varFailed (name : String) (cause : Error)
  /-- The value of a variable was not found in the builder's transcript. -/
  | varUnreadable (name : String) (fault : Transcript.Fault)
  | cancelled
  | fileFailed (use : FileUse)
  | commandNotStarted (command : String)
  /-- The path of a secret refers to a variable that is not set. -/
  | unsetVariable (secret name : String)
  | unknownSetting (name : String)
  | notBoolean (value : String)
  deriving Repr, DecidableEq

namespace Error

/-- The text of an error. -/
def message : Error → String
  | configInvalid path => "Invalid configuration at " ++ path ++ ": not a configuration"
  | configDirectory path =>
    "Failed to create config directory " ++ path ++ ": not a directory"
  | unsupportedVersion found =>
    "Unsupported apiVersion '" ++ found ++ "', expected '" ++ BuildFile.supportedVersion ++ "'"
  | definitionInvalid path fault =>
    "Invalid build definition " ++ path ++ ": " ++ fault.message
  | targetNotFound name => "Target not found: " ++ name
  | unknownDependency target dependency =>
    target ++ " depends on unknown target " ++ dependency
  | dependencyCycle target trace =>
    "Recursive graph detected by '" ++ target ++ "' target, trace: " ++ trace.render
  | unknownSecret owner id => "Unknown secret '" ++ id ++ "' referenced in " ++ owner.text
  | duplicateName kind name => "Duplicate " ++ kind.text ++ " name: " ++ name
  | emptyTarget name => "Target " ++ name ++ " has no stage and no dependencies"
  | missingBase name => "Target " ++ name ++ " declares a stage without 'from'"
  | builderFailed command output code =>
    "Builder command failed: " ++ command ++ ", exit code: " ++ toString code ++ "\n" ++ output
  | pullFailed image reason => "Image pull failed: " ++ image ++ ": " ++ reason
  | varFailed name cause => "Failed to calculate " ++ name ++ " var: " ++ cause.message
  | varUnreadable name fault =>
    "Failed to parse output of " ++ name ++ " var: " ++ fault.message
  | cancelled => "Build cancelled"
  | fileFailed use => "IO error: " ++ use.text
  | commandNotStarted command => "Command failed: " ++ command
  | unsetVariable secret name =>
    "Cannot expand path of secret " ++ secret ++ ": error looking key '" ++ name ++
      "' up: environment variable not found"
  | unknownSetting name =>
    "Unknown config key: " ++ name ++ ". Valid keys: " ++
      String.intercalate ", " (Setting.all.map Setting.name)
  | notBoolean value => "Invalid boolean value: " ++ value ++ ". Use true/false"

/-- Advice on an error. -/
def hint? : Error → Option String
  | unknownSecret .. => some "Declare the secret under [[secrets]] in the kiln config file"
  | unsupportedVersion _ =>
    some ("Set \"apiVersion\": \"" ++ BuildFile.supportedVersion ++ "\"")
  | targetNotFound name =>
    if name = defaultTarget then
      some "Pass target names explicitly or declare an 'all' target"
    else none
  | commandNotStarted _ => some "Is docker installed and on PATH?"
  | _ => none

end Error

end ContainerBuild
