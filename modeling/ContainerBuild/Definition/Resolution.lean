import ContainerBuild.Definition.Basic
import ContainerBuild.Error
import ContainerBuild.SecretSource

/-!
# Resolution

A build file becomes a definition if its names can be resolved. First every
target is *checked*: it and everything it refers to must be declared, free of
cycles, and right in itself. Targets are checked in declared order and depth
first, so of several causes the deepest one on the first way to it is reported:

* a target follows its edges in the order base, copies, dependencies;
* a stage without base is reported before any edge is followed;
* unknown secrets, and a target with nothing in it, are reported after all edges;
* a target that has been checked is not checked again.

Then the names are replaced by places, which cannot fail any more, and at last
the variables are checked, in declared order too.
-/

namespace ContainerBuild

namespace Resolution

/-- What names can refer to. -/
structure Scope where
  targets : List (String × BuildFile.Entry)
  secrets : List String

/-- Whether a target of a name is declared. -/
def Scope.declares (s : Scope) (name : String) : Bool :=
  s.targets.any (·.1 == name)

/-- The place of the target of a name. -/
def Scope.place? (s : Scope) (name : String) : Option Nat :=
  s.targets.findIdx? (·.1 == name)

/-! ### Checking -/

/-- The first name that an earlier one repeats. -/
def firstRepeated : List String → Option String :=
  go []
where
  /-- The first name that is among those seen, or repeats an earlier one. -/
  go (seen : List String) : List String → Option String
    | [] => none
    | name :: rest => if seen.contains name then some name else go (name :: seen) rest

/-- Names of one kind must not be repeated. -/
def checkUnique (kind : NameKind) (names : List String) : Except Error Unit :=
  match firstRepeated names with
  | some name => .error (.duplicateName kind name)
  | none => .ok ()

/-- All secrets must be known. -/
def checkSecrets (s : Scope) (owner : SecretOwner) (mounts : List SecretMount) :
    Except Error Unit :=
  match mounts.find? fun m => !s.secrets.contains m.id with
  | some m => .error (.unknownSecret owner m.id)
  | none => .ok ()

/-- The edges of a target, in the order in which they are followed. Bases and
    copies that are no declared targets are images; a dependency always is an
    edge. -/
def edges (s : Scope) : BuildFile.Entry → List (Edge × String)
  | .aggregate names => names.map (.dependsOn, ·)
  | .target t =>
    let dependencies := t.dependsOn.map (Edge.dependsOn, ·)
    if t.hasStage then
      (t.base.toList.filter s.declares).map (.base, ·) ++
        ((t.copies.toList.filterMap (·.source)).filter s.declares).map (.copy, ·) ++
        dependencies
    else dependencies

/-- What must hold of a target before its edges are followed. -/
def checkBefore (name : String) : BuildFile.Entry → Except Error Unit
  | .aggregate _ => .ok ()
  | .target t => if t.hasStage && t.base.isNone then .error (.missingBase name) else .ok ()

/-- What must hold of a target after its edges have been followed. -/
def checkAfter (s : Scope) (name : String) : BuildFile.Entry → Except Error Unit
  | .aggregate names => if names.isEmpty then .error (.emptyTarget name) else .ok ()
  | .target t =>
    if t.hasStage then checkSecrets s ⟨.target, name⟩ t.secrets.toList
    else if t.dependsOn.isEmpty then .error (.emptyTarget name)
    else .ok ()

/-- Checks a target reached by a trace, given the names of the targets checked
    so far, to which it is added together with all it refers to. A way that is
    longer than there are targets has met one of them twice, so the budget, one
    more than the number of targets, is never used up before a cycle is met. -/
def check (s : Scope) :
    (budget : Nat) → Trace → List String → String × BuildFile.Entry → Except Error (List String)
  | 0, trace, _, (name, _) => .error (.dependencyCycle name trace)
  | budget + 1, trace, checked, (name, entry) =>
    if checked.contains name then .ok checked
    else if trace.visits name then .error (.dependencyCycle name trace)
    else do
      checkBefore name entry
      let follow := fun checked (edge, target) =>
        match s.targets.lookup target with
        | none => .error (.unknownDependency name target)
        | some next => check s budget (trace ++ [⟨name, edge⟩]) checked (target, next)
      let checked ← (edges s entry).foldlM follow checked
      checkAfter s name entry
      return name :: checked

/-- Checks all targets, in declared order. -/
def checkAll (s : Scope) : Except Error (List String) :=
  s.targets.foldlM (fun checked target => check s (s.targets.length + 1) [] checked target) []

/-! ### Replacing names by places -/

/-- A copy with its source resolved. -/
def resolveCopy (s : Scope) (c : BuildFile.Copy) : Copy :=
  { source := c.source.map fun name =>
      match s.place? name with
      | some place => .vertex place
      | none => .image name
    src := c.src
    dst := c.dst }

/-- The stage that a target describes. -/
def resolveStage (s : Scope) (t : BuildFile.Target) : Stage :=
  { base := t.base.getD ""
    platform := t.platform
    workdir := t.workdir
    env := t.env
    caches := t.caches
    copies := t.copies.toList.map (resolveCopy s)
    network := t.network
    ssh := t.ssh
    secrets := t.secrets.toList
    command := t.command
    output := t.output }

/-- The vertex of a target. -/
def resolveEntry (s : Scope) : String × BuildFile.Entry → Vertex
  | (name, .aggregate names) =>
    { name, stage := none, parent := none, dependsOn := names.filterMap s.place? }
  | (name, .target t) =>
    { name
      stage := if t.hasStage then some (resolveStage s t) else none
      parent := if t.hasStage then t.base.bind s.place? else none
      dependsOn := t.dependsOn.filterMap s.place? }

/-- A variable as the definition has it. -/
def resolveVar : String × BuildFile.Var → Var
  | (name, v) =>
    { name
      base := v.base
      platform := v.platform
      workdir := v.workdir
      env := v.env
      caches := v.caches
      copies := v.copies.toList.map fun c => ⟨c.source, c.src, c.dst⟩
      secrets := v.secrets.toList
      network := v.network
      ssh := v.ssh
      command := v.command }

/-- Checks a variable. -/
def checkVar (s : Scope) : String × BuildFile.Var → Except Error Unit
  | (name, v) => checkSecrets s ⟨.var, name⟩ v.secrets.toList

end Resolution

open Resolution in
/-- The definition of a build file, given the secrets that are declared. -/
def BuildFile.resolve (file : BuildFile) (secrets : List SecretSource) :
    Except Error Definition := do
  if file.apiVersion ≠ supportedVersion then
    throw (.unsupportedVersion file.apiVersion)
  checkUnique .target (file.targets.map (·.1))
  checkUnique .var (file.vars.map (·.1))
  let scope : Scope := ⟨file.targets, secrets.map (·.id)⟩
  let _ ← checkAll scope
  file.vars.forM (checkVar scope)
  return ⟨file.targets.map (resolveEntry scope), file.vars.map resolveVar⟩

end ContainerBuild
