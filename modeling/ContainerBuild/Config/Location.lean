import ContainerBuild.Config.Secrets
import ContainerBuild.Files.Path

/-!
# Where the configuration is

Without another path the configuration lies in the user's directory for
configurations, which the environment names or else lies in the home directory.
-/

namespace ContainerBuild

/-- The user's directory for configurations. A relative path does not count, and
    without a home directory it is the working directory. -/
def Environment.configDirectory (e : Environment) : String :=
  match (e.get? "XDG_CONFIG_HOME").filter Path.isAbsolute, e.home? with
  | some directory, _ => directory
  | none, some home => Path.join home ".config"
  | none, none => "."

/-- The path of the configuration. -/
def Config.defaultPath (e : Environment) : String :=
  Path.join (Path.join e.configDirectory "kiln") "config.toml"

end ContainerBuild
