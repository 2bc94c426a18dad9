import ContainerBuild.Config.Basic
import ContainerBuild.Config.Template

/-!
# Paths of secrets

The path of a secret is a template, and one that begins with a tilde, alone or
before a slash, lies in the home directory. A tilde that is the value of a
variable has no such meaning.
-/

namespace ContainerBuild

/-- The home directory: the one that the environment names, or else that of the
    account. -/
def Environment.home? (e : Environment) : Option String :=
  ((e.get? "HOME").filter fun home => !home.isEmpty).or e.accountHome

/-- A path with the tilde at its beginning replaced. -/
def expandTilde (e : Environment) (path : List Char) : List Char :=
  match path, e.home? with
  | ['~'], some home => home.toList
  | '~' :: '/' :: rest, some home => home.toList ++ '/' :: rest
  | path, _ => path

/-- The path that a template means, or the name of a variable that is not set. -/
def expandPath (e : Environment) (template : String) : Except String String := do
  let template := template.toList
  let path ← expandTemplate e template
  return String.ofList (if template.head? = some '~' then expandTilde e path else path)

/-- A secret with its path expanded. -/
def SecretSource.expand (e : Environment) (s : SecretSource) : Except Error SecretSource :=
  match expandPath e s.path with
  | .ok path => .ok { s with path }
  | .error name => .error (.unsetVariable s.id name)

/-- The secrets of a configuration, with their paths expanded. -/
def Config.expandedSecrets (c : Config) (e : Environment) : Except Error (List SecretSource) :=
  c.secrets.mapM (SecretSource.expand e)

end ContainerBuild
