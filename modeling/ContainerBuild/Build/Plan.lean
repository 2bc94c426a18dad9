import ContainerBuild.Dockerfile.Generation

/-!
# Plans

A *plan* lists what is built one after the other, dependencies first. The
target that a stage starts from is built along with the stage, and on its own
only if it has an output or dependencies. What has a step is not planned again;
a target without a stage has none, so what it stands for is looked at each time.
-/

namespace ContainerBuild

/-- One thing to build. -/
structure BuildStep where
  /-- The target that is built. -/
  name : String
  /-- The stage of the document that the builder is asked for. -/
  stage : String
  /-- The directory that receives the output. -/
  output : Option String
  deriving Repr, DecidableEq

/-- Whether a target that a stage starts from is built on its own. -/
def Vertex.builtAlone (v : Vertex) : Bool :=
  v.output.isSome || !v.dependsOn.isEmpty

/-- The targets that are built before a target, besides those it is built along
    with. -/
def Definition.required (d : Definition) (v : Vertex) : List Vertex :=
  (d.verticesAt v.parent.toList).filter Vertex.builtAlone ++ d.verticesAt v.dependsOn

/-- The step that builds a target, if it has a stage. -/
def Vertex.step? (v : Vertex) : Option BuildStep :=
  v.stage.map fun s =>
    match s.output with
    | some o => ⟨v.name, Dockerfile.outputStageName v.name, some o.directory⟩
    | none => ⟨v.name, v.name, none⟩

/-- Adds the steps that build `v`, by at most `budget` steps through the graph, to
    the steps planned before. -/
def Definition.planFrom (d : Definition) :
    (budget : Nat) → List BuildStep → Vertex → List BuildStep
  | 0, steps, _ => steps
  | budget + 1, steps, v =>
    if steps.any (·.name == v.name) then steps
    else (d.required v).foldl (d.planFrom budget) steps ++ v.step?.toList

/-- The steps that build `root`. -/
def Definition.plan (d : Definition) (root : Vertex) : List BuildStep :=
  d.planFrom d.depth [] root

end ContainerBuild
