import ContainerBuild.Definition.Basic

/-!
# Walks through a definition

`postorder` lists the targets that can be reached from one of them, those that a
target leads to before the target itself, each name once. Where a target leads
is given by a function; for a document it is everything that the target refers
to (`referenced`).
-/

namespace ContainerBuild.Definition

/-- Adds the targets reached from `v`, by at most `budget` steps, to the targets
    listed before. A name that is listed is not walked again. -/
def postorderFrom (next : Vertex → List Vertex) :
    (budget : Nat) → List Vertex → Vertex → List Vertex
  | 0, listed, _ => listed
  | budget + 1, listed, v =>
    if listed.any (·.name == v.name) then listed
    else (next v).foldl (postorderFrom next budget) listed ++ [v]

/-- The targets reached from `root`, which need not be one of the definition's
    own, each after those it leads to. -/
def postorder (d : Definition) (next : Vertex → List Vertex) (root : Vertex) : List Vertex :=
  postorderFrom next d.depth [] root

/-- The targets that a target refers to. -/
def referenced (d : Definition) (v : Vertex) : List Vertex :=
  d.verticesAt v.references

end ContainerBuild.Definition
