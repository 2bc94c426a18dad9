/-!
# Build files

A *build file* declares targets and variables. A *target* is either a bare list
of the targets it stands for or the description of a stage; a *variable* is a
stage whose output is a text. Names are kept in written order, and repeated
names are kept too: whether they are allowed is decided when the file is
resolved.
-/

namespace ContainerBuild

/-- A cache directory of a stage. -/
structure CacheMount where
  id : String
  path : String
  deriving Repr, DecidableEq, Inhabited

/-- A secret of a stage and the file at which the stage finds it. -/
structure SecretMount where
  id : String
  path : String
  deriving Repr, DecidableEq, Inhabited

/-- What a stage gives out: a path in its file system and the directory on the
    host that receives it. -/
structure Output where
  artifact : String
  directory : String
  deriving Repr, DecidableEq, Inhabited

/-- A field that holds a list or, without the list's brackets, one item. -/
inductive OneOrMany (α : Type) where
  | many (items : List α)
  | one (item : α)
  deriving Repr, DecidableEq

/-- The items of a field. -/
def OneOrMany.toList {α : Type} : OneOrMany α → List α
  | .many items => items
  | .one item => [item]

/-- Whether a field is an empty list. -/
def OneOrMany.isEmpty {α : Type} : OneOrMany α → Bool
  | .many items => items.isEmpty
  | .one _ => false

namespace BuildFile

/-- A copy into a stage, from a source that may name a target or an image, or
    else from the build context. -/
structure Copy where
  source : Option String := none
  src : String
  dst : String
  deriving Repr, DecidableEq, Inhabited

/-- The description of a target. All of it but `dependsOn` describes a stage. -/
structure Target where
  /-- The image or target that the stage starts from. -/
  base : Option String := none
  dependsOn : List String := []
  env : List (String × String) := []
  command : Option String := none
  ssh : Bool := false
  caches : List CacheMount := []
  copies : OneOrMany Copy := .many []
  secrets : OneOrMany SecretMount := .many []
  platform : Option String := none
  workdir : String := ""
  network : Option String := none
  output : Option Output := none
  deriving Repr, DecidableEq

/-- Whether a target describes a stage, and not only what it depends on. -/
def Target.hasStage (t : Target) : Bool :=
  t.base.isSome || !t.env.isEmpty || t.command.isSome || t.ssh || !t.caches.isEmpty ||
    !t.copies.isEmpty || !t.secrets.isEmpty || t.platform.isSome || !t.workdir.isEmpty ||
    t.network.isSome || t.output.isSome

/-- What a target name stands for. -/
inductive Entry where
  /-- The targets of a list. -/
  | aggregate (names : List String)
  | target (t : Target)
  deriving Repr, DecidableEq

/-- The description of a variable. -/
structure Var where
  base : String
  platform : Option String := none
  workdir : String := ""
  env : List (String × String) := []
  caches : List CacheMount := []
  copies : OneOrMany Copy := .many []
  secrets : OneOrMany SecretMount := .many []
  network : Option String := none
  ssh : Bool := false
  command : String
  deriving Repr, DecidableEq

end BuildFile

/-- A build file. -/
structure BuildFile where
  apiVersion : String
  targets : List (String × BuildFile.Entry) := []
  vars : List (String × BuildFile.Var) := []
  deriving Repr, DecidableEq

/-- The version of build files that is understood. -/
def BuildFile.supportedVersion : String := "kiln/v1"

end ContainerBuild
