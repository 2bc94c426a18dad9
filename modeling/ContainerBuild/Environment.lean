/-!
# Environments

The variables that the program is started with, and what it knows of the account
that it runs for.
-/

namespace ContainerBuild

/-- Named values, and the user's account. -/
structure Environment where
  entries : List (String × String) := []
  /-- The home directory of the account. -/
  accountHome : Option String := none
  deriving Repr, DecidableEq

/-- The value of a variable, if it is set. -/
def Environment.get? (e : Environment) (name : String) : Option String :=
  e.entries.lookup name

end ContainerBuild
