import ContainerBuild.BuildFile.Basic

/-!
# Definitions

A *definition* is a build file whose names have been resolved: its targets are
the vertices of a graph, in declared order, and refer to each other by their
places in that order.
-/

namespace ContainerBuild

/-- Where a target copies from. -/
inductive CopySource where
  /-- The stage of another target. -/
  | vertex (place : Nat)
  /-- An image. -/
  | image (reference : String)
  deriving Repr, DecidableEq

/-- A copy into the stage of a target, from a source or else from the build
    context. -/
structure Copy where
  source : Option CopySource
  src : String
  dst : String
  deriving Repr, DecidableEq

/-- The stage of a target. -/
structure Stage where
  /-- The image that the stage starts from, or the name of the target it starts
      from. -/
  base : String
  platform : Option String := none
  workdir : String := ""
  env : List (String × String) := []
  caches : List CacheMount := []
  copies : List Copy := []
  network : Option String := none
  ssh : Bool := false
  secrets : List SecretMount := []
  command : Option String := none
  output : Option Output := none
  deriving Repr, DecidableEq

/-- A target of the graph. -/
structure Vertex where
  name : String
  /-- None for a target that only stands for its dependencies. -/
  stage : Option Stage
  /-- The target that the stage starts from, if it starts from one. -/
  parent : Option Nat
  /-- The targets that are built before this one. -/
  dependsOn : List Nat
  deriving Repr, DecidableEq

/-- A copy into the stage of a variable. -/
structure VarCopy where
  source : Option String
  src : String
  dst : String
  deriving Repr, DecidableEq

/-- A variable: a stage whose command prints its value. -/
structure Var where
  name : String
  base : String
  platform : Option String := none
  workdir : String := ""
  env : List (String × String) := []
  caches : List CacheMount := []
  copies : List VarCopy := []
  secrets : List SecretMount := []
  network : Option String := none
  ssh : Bool := false
  command : String
  deriving Repr, DecidableEq

/-- A build file whose names have been resolved. -/
structure Definition where
  vertices : List Vertex
  vars : List Var
  deriving Repr, DecidableEq

namespace Vertex

/-- A target that only stands for others and belongs to no definition. -/
def aggregate (name : String) (dependsOn : List Nat) : Vertex :=
  { name, stage := none, parent := none, dependsOn }

/-- What a target gives out. -/
def output (v : Vertex) : Option Output :=
  v.stage.bind (·.output)

/-- The targets that a target copies from, in written order. -/
def copyPlaces (v : Vertex) : List Nat :=
  match v.stage with
  | none => []
  | some stage => stage.copies.filterMap fun c =>
    match c.source with
    | some (.vertex place) => some place
    | _ => none

/-- The targets that a target refers to: the one its stage starts from, those it
    copies from and those it depends on. -/
def references (v : Vertex) : List Nat :=
  v.parent.toList ++ v.copyPlaces ++ v.dependsOn

end Vertex

namespace Definition

/-- The place of a target. -/
def find? (d : Definition) (name : String) : Option Nat :=
  d.vertices.findIdx? (·.name == name)

/-- The targets at some places. -/
def verticesAt (d : Definition) (places : List Nat) : List Vertex :=
  places.filterMap fun place => d.vertices[place]?

/-- The name of the target at a place. -/
def nameAt (d : Definition) (place : Nat) : String :=
  match d.vertices[place]? with
  | some v => v.name
  | none => ""

/-- A bound on the length of a way through the graph that begins outside it. -/
def depth (d : Definition) : Nat :=
  d.vertices.length + 1

end Definition

end ContainerBuild
