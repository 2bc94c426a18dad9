/-!
# Secrets of the host

What stands behind the secrets that a build file mentions by name.
-/

namespace ContainerBuild

/-- A secret that a build may use: its name, and the file on the host. -/
structure SecretSource where
  id : String
  path : String
  deriving Repr, DecidableEq

end ContainerBuild
