/-!
# Settings

The settings of a configuration that can be changed one by one, and the names by
which they are called.
-/

namespace ContainerBuild

/-- A setting that can be changed on its own. -/
inductive Setting where
  | executable
  | frontend
  | clientConfig
  | forcePull
  deriving Repr, DecidableEq

namespace Setting

/-- The name of a setting. -/
def name : Setting → String
  | .executable => "builder.executable"
  | .frontend => "builder.syntax_image"
  | .clientConfig => "builder.docker_config"
  | .forcePull => "builder.force_pull"

/-- All settings. -/
def all : List Setting :=
  [.executable, .frontend, .clientConfig, .forcePull]

/-- The setting of a name. -/
def ofName? (name : String) : Option Setting :=
  all.find? (·.name == name)

end Setting

end ContainerBuild
