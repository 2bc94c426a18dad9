/-!
# Traces

While the targets of a build file are resolved, the *trace* holds the way to the
target at hand: the targets it was reached from, oldest first, each with the
kind of the edge that was followed.
-/

namespace ContainerBuild

/-- How a target refers to another one. -/
inductive Edge where
  /-- Its stage starts from the other's. -/
  | base
  /-- Its stage copies from the other's. -/
  | copy
  /-- It is built after the other. -/
  | dependsOn
  deriving Repr, DecidableEq

/-- The field that writes an edge. -/
def Edge.field : Edge → String
  | .base => "from"
  | .copy => "copy"
  | .dependsOn => "dependsOn"

/-- A target and the edge followed from it. -/
structure Step where
  target : String
  edge : Edge
  deriving Repr, DecidableEq

/-- The way to a target, oldest step first. -/
abbrev Trace := List Step

/-- The text of a step. -/
def Step.render (s : Step) : String :=
  s.target ++ "(" ++ s.edge.field ++ ")"

/-- The text of a trace, such as `a(from)->b(copy)`. -/
def Trace.render (t : Trace) : String :=
  String.intercalate "->" (t.map Step.render)

/-- Whether a target is on the way. -/
def Trace.visits (t : Trace) (name : String) : Bool :=
  t.any fun s => s.target == name

end ContainerBuild
