import ContainerBuild.Error
import ContainerBuild.SecretSource

/-!
# Configurations

What a user sets once for all builds: how the builder is run, and where the
secrets are that build files mention.
-/

namespace ContainerBuild

/-- How the builder is run. -/
structure BuilderSettings where
  executable : String := "docker"
  /-- The image that reads the documents. -/
  frontend : String := "docker/dockerfile:1.4"
  /-- The directory with the client's own configuration. -/
  clientConfig : Option String := none
  /-- Whether all images are pulled before every build. -/
  forcePull : Bool := false
  deriving Repr, DecidableEq

/-- A configuration. -/
structure Config where
  builder : BuilderSettings := {}
  secrets : List SecretSource := []
  deriving Repr, DecidableEq

namespace Config

/-- The configuration without anything set. -/
def default : Config := {}

/-- The Boolean that a text means, in any case of its letters. Letters beyond
    ASCII have no lower-case forms among those of these words. -/
def boolean? (text : String) : Option Bool :=
  let lower := text.toLower
  if ["true", "1", "yes"].contains lower then some true
  else if ["false", "0", "no"].contains lower then some false
  else none

/-- A configuration with one setting changed. -/
def change (c : Config) (value : String) : Setting → Except Error Config
  | .executable => .ok { c with builder.executable := value }
  | .frontend => .ok { c with builder.frontend := value }
  | .clientConfig =>
    .ok { c with builder.clientConfig := if value.isEmpty then none else some value }
  | .forcePull =>
    match boolean? value with
    | some b => .ok { c with builder.forcePull := b }
    | none => .error (.notBoolean value)

/-- A configuration with the setting of a name changed. -/
def set (c : Config) (name value : String) : Except Error Config :=
  match Setting.ofName? name with
  | some setting => c.change value setting
  | none => .error (.unknownSetting name)

end Config

end ContainerBuild
