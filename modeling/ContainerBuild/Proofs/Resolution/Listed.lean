import ContainerBuild.Proofs.Resolution.Faults

/-!
# One item and a list of one item

A field that holds one item is resolved like the list of that item: a build file and the
one in which all such items stand in lists (`BuildFile.listed`) give the same definition,
or fail with the same error (`BuildFile.resolve_listed`). The search through the targets
sees the same edges and the same faults in both (`Resolution.check_listed`).
-/

namespace ContainerBuild

/-! ### Items in lists -/

/-- A field with its items in a list. -/
def OneOrMany.listed {α : Type} (items : OneOrMany α) : OneOrMany α :=
  .many items.toList

@[simp]
theorem OneOrMany.isEmpty_listed {α : Type} (items : OneOrMany α) :
    items.listed.isEmpty = items.isEmpty := by
  cases items <;> rfl

namespace BuildFile

/-- A target with its items in lists. -/
def Target.listed (t : Target) : Target :=
  { t with copies := t.copies.listed, secrets := t.secrets.listed }

/-- What a target name stands for, with its items in lists. -/
def Entry.listed : Entry → Entry
  | .aggregate names => .aggregate names
  | .target t => .target t.listed

/-- A variable with its items in lists. -/
def Var.listed (v : Var) : Var :=
  { v with copies := v.copies.listed, secrets := v.secrets.listed }

@[simp]
theorem Target.hasStage_listed (t : Target) : t.listed.hasStage = t.hasStage := by
  simp only [hasStage, listed, OneOrMany.isEmpty_listed]

end BuildFile

/-- A build file with its items in lists. -/
def BuildFile.listed (file : BuildFile) : BuildFile :=
  { file with
    targets := file.targets.map fun t => (t.1, t.2.listed)
    vars := file.vars.map fun v => (v.1, v.2.listed) }

/-! ### The search -/

namespace Resolution

open BuildFile (Entry)

variable {s : Scope} {name : String} {entry : Entry}

/-- What names refer to, with items in lists. -/
def Scope.listed (s : Scope) : Scope :=
  { s with targets := s.targets.map fun t => (t.1, t.2.listed) }

@[simp]
theorem Scope.declares_listed (s : Scope) : s.listed.declares = s.declares := by
  funext name
  rw [declares, declares, listed, List.any_map]
  rfl

@[simp]
theorem Scope.place?_listed (s : Scope) : s.listed.place? = s.place? := by
  funext name
  rw [place?, place?, listed, List.findIdx?_map]
  rfl

theorem Scope.lookup_listed (s : Scope) (name : String) :
    s.listed.targets.lookup name = (s.targets.lookup name).map Entry.listed := by
  rw [listed]
  induction s.targets with
  | nil => rfl
  | cons t targets ih =>
    rw [List.map_cons, List.lookup_cons, List.lookup_cons, ih]
    cases name == t.1 <;> rfl

theorem edges_listed : edges s.listed entry.listed = edges s entry := by
  cases entry with
  | aggregate names => rfl
  | target t =>
    simp only [Entry.listed, edges, BuildFile.Target.hasStage_listed, Scope.declares_listed]
    rfl

theorem checkBefore_listed : checkBefore name entry.listed = checkBefore name entry := by
  cases entry with
  | aggregate names => rfl
  | target t =>
    simp only [Entry.listed, checkBefore, BuildFile.Target.hasStage_listed]
    rfl

theorem checkAfter_listed : checkAfter s.listed name entry.listed = checkAfter s name entry := by
  cases entry with
  | aggregate names => rfl
  | target t =>
    simp only [Entry.listed, checkAfter, BuildFile.Target.hasStage_listed]
    rfl

/-- The search goes the same way. -/
theorem check_listed {budget : Nat} {trace : Trace} {checked : List String} :
    check s.listed budget trace checked (name, entry.listed) =
      check s budget trace checked (name, entry) := by
  induction budget generalizing trace checked name entry with
  | zero => rfl
  | succ budget ih =>
    have hfollow : follow s.listed budget trace name = follow s budget trace name := by
      funext checked e
      rw [follow, follow, s.lookup_listed]
      cases s.targets.lookup e.2 with
      | none => rfl
      | some next => exact ih
    rw [check_succ, check_succ, edges_listed, checkBefore_listed, checkAfter_listed, hfollow]

theorem checkAll_listed : checkAll s.listed = checkAll s := by
  rw [checkAll, checkAll, Scope.listed, List.foldlM_map, List.length_map]
  congr 1
  funext checked t
  exact check_listed

theorem resolveEntry_listed (t : String × Entry) :
    resolveEntry s.listed (t.1, t.2.listed) = resolveEntry s t := by
  obtain ⟨name, entry⟩ := t
  have hcopy : resolveCopy s.listed = resolveCopy s := by
    funext c
    rw [resolveCopy, resolveCopy, Scope.place?_listed]
  cases entry with
  | aggregate names => simp only [BuildFile.Entry.listed, resolveEntry, Scope.place?_listed]
  | target t =>
    have hstage : resolveStage s.listed t.listed = resolveStage s t := by
      rw [resolveStage, resolveStage, hcopy]
      rfl
    simp only [BuildFile.Entry.listed, resolveEntry, BuildFile.Target.hasStage_listed,
      Scope.place?_listed, hstage]
    rfl

end Resolution

/-- Items in lists are resolved like items that stand alone. -/
theorem BuildFile.resolve_listed (file : BuildFile) (secrets : List SecretSource) :
    file.listed.resolve secrets = file.resolve secrets := by
  have hnames : file.listed.targets.map (·.1) = file.targets.map (·.1) := List.map_map
  have hvarNames : file.listed.vars.map (·.1) = file.vars.map (·.1) := List.map_map
  have hscope : file.listed.scope secrets = (file.scope secrets).listed := rfl
  have hcheck : Resolution.checkAll (file.listed.scope secrets) =
      Resolution.checkAll (file.scope secrets) := by
    rw [hscope, Resolution.checkAll_listed]
  have hcheckVars : file.listed.vars.forM (Resolution.checkVar (file.listed.scope secrets)) =
      file.vars.forM (Resolution.checkVar (file.scope secrets)) := List.forM_map
  have hentries : file.listed.targets.map (Resolution.resolveEntry (file.listed.scope secrets)) =
      file.targets.map (Resolution.resolveEntry (file.scope secrets)) := by
    rw [hscope, listed, List.map_map]
    exact List.map_congr_left fun t _ => Resolution.resolveEntry_listed t
  have hvars : file.listed.vars.map Resolution.resolveVar =
      file.vars.map Resolution.resolveVar := List.map_map
  rw [scope, scope] at hcheck hcheckVars hentries
  simp only [resolve, hnames, hvarNames, hcheck, hcheckVars, hentries, hvars]
  rfl

end ContainerBuild
