import ContainerBuild.Definition.Basic
import ContainerBuild.Dockerfile.Basic

/-!
# Images of a build

The images that a build needs are found before anything is built: the frontend
image, then those of the requested target and of everything it refers to, and
then the bases of the variables. Each is listed once, where it is first found;
`scratch` is no image.
-/

namespace ContainerBuild

/-- Something that a target needs: another target or an image. -/
inductive Need where
  | vertex (v : Vertex)
  | image (reference : String)
  deriving Repr, DecidableEq

/-- The target at a place as a need. -/
def Definition.needAt (d : Definition) (place : Nat) : Option Need :=
  d.vertices[place]?.map .vertex

/-- What a target needs, in the order in which it is looked at: the base, the
    sources of copies, the dependencies. -/
def Definition.needs (d : Definition) (v : Vertex) : List Need :=
  let base := match v.parent with
    | some place => (d.needAt place).toList
    | none => (v.stage.map fun s => Need.image s.base).toList
  let sources := (v.stage.map (·.copies)).getD [] |>.filterMap fun c =>
    match c.source with
    | some (.vertex place) => d.needAt place
    | some (.image reference) => some (.image reference)
    | none => none
  base ++ sources ++ v.dependsOn.filterMap d.needAt

namespace Discovery

/-- The targets visited and the images found so far. -/
structure State where
  visited : List String := []
  images : List String := []
  deriving Repr, DecidableEq

/-- Images with one more, unless it is listed or no image. -/
def add (images : List String) (image : String) : List String :=
  if image = Dockerfile.scratch ∨ images.contains image then images else images ++ [image]

/-- Looks at all that a target needs, in at most `budget` steps. -/
def walk (d : Definition) : (budget : Nat) → State → Vertex → State
  | 0, s, _ => s
  | budget + 1, s, v =>
    let look := fun s need =>
      match need with
      | .image reference => { s with images := add s.images reference }
      | .vertex u =>
        if s.visited.contains u.name then s
        else walk d budget { s with visited := u.name :: s.visited } u
    (d.needs v).foldl look s

end Discovery

/-- The images that are needed to build `root` and to compute all variables. -/
def Definition.images (d : Definition) (root : Vertex) (frontend : String) : List String :=
  let found := Discovery.walk d d.depth { images := Discovery.add [] frontend } root
  (d.vars.map (·.base)).foldl Discovery.add found.images

end ContainerBuild
