import ContainerBuild.Build.Run
import ContainerBuild.Proofs.Resolution.Causes

/-!
# What is required of a stage

A variable and a target that are described alike (`Var.asTarget`) have the same document, but
for one thing: what the variable mounts must be there, and what the target mounts need not
(`Var.document_eq_requiring`). So a value is computed in the environment that a stage with the
same description has.

The documents of variables and of targets are made in different ways: the one has a single
stage, the other has the stages that a walk finds. A target that refers to no other one is all
that the walk finds (`stages_of_no_references`). A build file with a variable and such a target is
resolved to both of them (`BuildFile.resolve_alike`).
-/

namespace ContainerBuild

namespace Dockerfile

/-! ### Marks -/

/-- A mount with another mark, if it has one. -/
def Mount.requiring (required : Bool) : Mount → Mount
  | .cache id target => .cache id target
  | .secret id target _ => .secret id target required
  | .ssh _ => .ssh required

/-- Whether a mount is marked as required. A cache has no mark. -/
def Mount.required? : Mount → Option Bool
  | .cache .. => none
  | .secret _ _ required => some required
  | .ssh required => some required

/-- An instruction with another mark on its mounts. -/
def Instruction.requiring (required : Bool) : Instruction → Instruction
  | .run r => .run { r with mounts := r.mounts.map (·.requiring required) }
  | other => other

/-- The mounts of an instruction. -/
def Instruction.mounts : Instruction → List Mount
  | .run r => r.mounts
  | _ => []

/-- A document with another mark on all mounts, and otherwise the same. -/
def Document.requiring (required : Bool) (document : Document) : Document where
  frontend := document.frontend
  stages := document.stages.map fun s =>
    { s with instructions := s.instructions.map (·.requiring required) }

/-- The mounts of a document. -/
def Document.mounts (document : Document) : List Mount :=
  document.stages.flatMap fun s => s.instructions.flatMap (·.mounts)

theorem Mount.required?_requiring (required : Bool) (m : Mount) :
    (m.requiring required).required? = m.required?.map fun _ => required := by
  cases m <;> rfl

@[simp]
theorem Instruction.requiring_run (required : Bool) (r : Run) :
    (run r).requiring required =
      run { r with mounts := r.mounts.map (·.requiring required) } := rfl

@[simp]
theorem Instruction.requiring_copy (required : Bool) (source : Option String) (src dst : String) :
    (copy source src dst).requiring required = copy source src dst := rfl

theorem Instruction.mounts_requiring (required : Bool) (i : Instruction) :
    (i.requiring required).mounts = i.mounts.map (·.requiring required) := by
  cases i <;> rfl

theorem Document.mounts_requiring (required : Bool) (document : Document) :
    (document.requiring required).mounts = document.mounts.map (·.requiring required) := by
  simp only [mounts, requiring, List.flatMap_map, List.map_flatMap, Instruction.mounts_requiring]

theorem Document.required?_of_mem_mounts {required : Bool} {document : Document} {m : Mount}
    {mark : Bool} (hm : m ∈ (document.requiring required).mounts) (h : m.required? = some mark) :
    mark = required := by
  rw [mounts_requiring] at hm
  obtain ⟨m, -, rfl⟩ := List.mem_map.1 hm
  rw [Mount.required?_requiring] at h
  obtain ⟨_, -, rfl⟩ := Option.map_eq_some_iff.1 h
  rfl

section

variable (required required' : Bool)

theorem map_requiring_mounts (caches : List CacheMount) (secrets : List SecretMount) (ssh : Bool) :
    (Dockerfile.mounts required' caches secrets ssh).map (·.requiring required) =
      Dockerfile.mounts required caches secrets ssh := by
  simp only [Dockerfile.mounts, List.map_append, List.map_map, Function.comp_def, Mount.requiring]
  cases ssh <;> rfl

theorem map_requiring_workdirInstructions (directory : String) :
    (workdirInstructions directory).map (·.requiring required) =
      workdirInstructions directory := by
  rw [workdirInstructions]
  split_ifs <;> rfl

theorem map_requiring_envInstructions (entries : List (String × String)) :
    (envInstructions entries).map (·.requiring required) = envInstructions entries := by
  simp [envInstructions, Instruction.requiring]

end

end Dockerfile

open Dockerfile Resolution

/-! ### Variables and targets -/

/-- The target of a definition that is described like a variable: whatever it copies from is
    an image, and it gives out nothing. -/
def Var.asTarget (v : Var) : Vertex where
  name := v.name
  stage := some {
    base := v.base
    platform := v.platform
    workdir := v.workdir
    env := v.env
    caches := v.caches
    copies := v.copies.map fun c => ⟨c.source.map .image, c.src, c.dst⟩
    network := v.network
    ssh := v.ssh
    secrets := v.secrets
    command := some v.command }
  parent := none
  dependsOn := []

/-- The target of a build file that is described like a variable. -/
def BuildFile.Var.asTarget (x : BuildFile.Var) : BuildFile.Target where
  base := some x.base
  platform := x.platform
  workdir := x.workdir
  env := x.env
  caches := x.caches
  copies := x.copies
  network := x.network
  ssh := x.ssh
  secrets := x.secrets
  command := some x.command

/-- A build file with a variable, and with a target of the same name and description. -/
def BuildFile.alike (name : String) (x : BuildFile.Var) : BuildFile where
  apiVersion := supportedVersion
  targets := [(name, .target x.asTarget)]
  vars := [(name, x)]

/-- The only stages are those of the root if it refers to nothing. -/
theorem Definition.stages_of_no_references (d : Definition) {root : Vertex}
    (h : root.references = []) (values : VarValues) (frontend : String) :
    (d.document root values frontend).stages = d.stagesOf values root := by
  have hwalk : d.postorder d.referenced root = [root] := by
    rw [postorder, depth, postorderFrom, referenced, h]
    rfl
  rw [document, hwalk, List.flatMap_singleton]

namespace Var

variable (v : Var)

theorem references_asTarget : v.asTarget.references = [] := by
  simp only [Vertex.references, Vertex.copyPlaces, asTarget]
  simp

/-- The instructions of a variable's stage, with a mark of choice on the mounts. -/
def marked (required : Bool) : List Instruction :=
  workdirInstructions v.workdir ++ envInstructions v.env ++
    v.copies.map (fun c => .copy c.source c.src c.dst) ++
    [.run {
      mounts := mounts required v.caches v.secrets v.ssh
      network := v.network
      command := v.command }]

theorem map_requiring_marked (required required' : Bool) :
    (v.marked required').map (·.requiring required) = v.marked required := by
  simp only [marked, List.map_append, map_requiring_workdirInstructions,
    map_requiring_envInstructions, List.map_map, Function.comp_def, List.map_cons, List.map_nil,
    Instruction.requiring_copy, Instruction.requiring_run, map_requiring_mounts]

theorem instructions_eq_marked : v.instructions = v.marked true := rfl

/-- The stage of the target has the instructions of the variable, unmarked. -/
theorem stagesOf_asTarget (d : Definition) :
    d.stagesOf .empty v.asTarget = [{
      base := v.base
      platform := v.platform
      label := some v.name
      instructions := v.marked false }] := by
  have hsource : ∀ c : VarCopy, (c.source.map CopySource.image).map d.sourceName = c.source := by
    intro c
    rw [Option.map_map]
    exact Option.map_id'
  simp only [Definition.stagesOf, asTarget, Definition.instructions, Option.toList, marked,
    VarValues.empty, envInstructions, List.map_nil, List.append_nil, List.map_map,
    Function.comp_def, hsource, List.map_cons, Stage.runInstruction]

theorem document_eq_requiring (d : Definition) (frontend : String) :
    v.document frontend = (d.document v.asTarget .empty frontend).requiring true ∧
      d.document v.asTarget .empty frontend = (v.document frontend).requiring false := by
  have hstages := d.stages_of_no_references v.references_asTarget .empty frontend
  rw [v.stagesOf_asTarget] at hstages
  have hdocument : d.document v.asTarget .empty frontend = ⟨frontend, _⟩ :=
    congrArg (Document.mk frontend) hstages
  rw [hdocument]
  simp only [document, Document.requiring, List.map_cons, List.map_nil, instructions_eq_marked,
    map_requiring_marked, and_self]

end Var

/-! ### Build files -/

namespace BuildFile

section Alike

variable {name : String} {x : BuildFile.Var} {secrets : List SecretSource}

theorem place?_alike {n : String} (hn : n ≠ name) :
    ((alike name x).scope secrets).place? n = none := by
  simp [scope, Scope.place?, alike, hn.symm]

theorem declares_alike {n : String} (hn : n ≠ name) :
    ((alike name x).scope secrets).declares n = false := by
  simp [scope, Scope.declares, alike, hn.symm]

variable (hbase : x.base ≠ name) (hsources : ∀ c ∈ x.copies.toList, c.source ≠ some name)

include hbase hsources in
/-- The target leads nowhere. -/
theorem edges_alike : edges ((alike name x).scope secrets) (.target x.asTarget) = [] := by
  have hcopies : (x.copies.toList.filterMap (·.source)).filter
      ((alike name x).scope secrets).declares = [] := by
    refine List.filter_eq_nil_iff.2 fun n hn => ?_
    obtain ⟨c, hc, hsource⟩ := List.mem_filterMap.1 hn
    have hne : n ≠ name := fun h => hsources c hc (h ▸ hsource)
    rw [declares_alike hne]
    exact Bool.false_ne_true
  simp [edges, Var.asTarget, declares_alike hbase, hcopies]

include hbase hsources in
theorem resolveEntry_alike :
    resolveEntry ((alike name x).scope secrets) (name, .target x.asTarget) =
      (resolveVar (name, x)).asTarget := by
  have hcopies : x.copies.toList.map (resolveCopy ((alike name x).scope secrets)) =
      (resolveVar (name, x)).copies.map fun c => ⟨c.source.map .image, c.src, c.dst⟩ := by
    rw [resolveVar, List.map_map]
    refine List.map_congr_left fun c hc => ?_
    cases hsource : c.source with
    | none => simp [resolveCopy, hsource]
    | some n =>
      have hn : n ≠ name := fun h => hsources c hc (h ▸ hsource)
      simp [resolveCopy, hsource, place?_alike hn]
  have hstage : x.asTarget.hasStage = true := rfl
  rw [ContainerBuild.Var.asTarget, ← hcopies, resolveEntry, if_pos hstage, if_pos hstage]
  simp [resolveStage, Var.asTarget, place?_alike hbase, resolveVar]

include hbase hsources in
/-- A build file with a variable and the target described like it is resolved to the
    definition that has the two of them, if none of the names in them means the target itself. -/
theorem resolve_alike (hsecrets : ∀ m ∈ x.secrets.toList, m.id ∈ secrets.map (·.id)) :
    (alike name x).resolve secrets =
      .ok ⟨[(resolveVar (name, x)).asTarget], [resolveVar (name, x)]⟩ := by
  have hknown : ∀ owner,
      checkSecrets ((alike name x).scope secrets) owner x.secrets.toList = .ok () := by
    intro owner
    have hfind : x.secrets.toList.find?
        (fun m => !((alike name x).scope secrets).secrets.contains m.id) = none := by
      simpa [scope] using hsecrets
    rw [checkSecrets, hfind]
  have hall : checkAll ((alike name x).scope secrets) = .ok [name] := by
    have hcheck : check ((alike name x).scope secrets) 2 [] [] (name, .target x.asTarget) =
        .ok [name] := by
      have hafter : checkAfter ((alike name x).scope secrets) name (.target x.asTarget) = .ok () :=
        hknown _
      rw [check, edges_alike hbase hsources, hafter]
      rfl
    change (check ((alike name x).scope secrets) 2 [] [] (name, .target x.asTarget) >>= pure) = _
    rw [hcheck]
    rfl
  have hversion : (alike name x).apiVersion = supportedVersion := rfl
  have htargets : ((alike name x).targets.map (·.1)).Nodup := List.nodup_singleton name
  have hvars : ((alike name x).vars.map (·.1)).Nodup := List.nodup_singleton name
  have hresolve : (alike name x).resolve secrets =
      .ok ⟨[resolveEntry ((alike name x).scope secrets) (name, .target x.asTarget)],
        [resolveVar (name, x)]⟩ :=
    resolve_vars_eq hversion htargets hvars hall (List.forall_mem_singleton.2 (hknown _))
  rw [hresolve, resolveEntry_alike hbase hsources]

end Alike

end BuildFile

/-- The document of a variable is that of the target described like it, with all secrets and
    SSH agents marked as required, of which none is in the other one. A build file that has the
    two of them, with all secrets declared and no name that means the target itself, is
    resolved to a definition with this target and variable. -/
theorem Var.document_eq_target (v : Var) (frontend : String) :
    (∀ d : Definition,
      v.document frontend = (d.document v.asTarget .empty frontend).requiring true ∧
      d.document v.asTarget .empty frontend = (v.document frontend).requiring false ∧
      (∀ m ∈ (v.document frontend).mounts, ∀ mark, m.required? = some mark → mark = true) ∧
      ∀ m ∈ (d.document v.asTarget .empty frontend).mounts, ∀ mark, m.required? = some mark →
        mark = false) ∧
    ∀ name x secrets, resolveVar (name, x) = v → x.base ≠ name →
      (∀ c ∈ x.copies.toList, c.source ≠ some name) →
      (∀ m ∈ x.secrets.toList, m.id ∈ secrets.map (·.id)) →
      ∃ d, (BuildFile.alike name x).resolve secrets = .ok d ∧ d.vertices = [v.asTarget] ∧
        d.vars = [v] ∧ d.root [name] = .ok v.asTarget := by
  refine ⟨fun d => ?_, ?_⟩
  · obtain ⟨hvar, htarget⟩ := v.document_eq_requiring d frontend
    refine ⟨hvar, htarget, fun m hm mark hmark => ?_, fun m hm mark hmark => ?_⟩
    · rw [hvar] at hm
      exact Document.required?_of_mem_mounts hm hmark
    · rw [htarget] at hm
      exact Document.required?_of_mem_mounts hm hmark
  · rintro name x secrets rfl hbase hsources hsecrets
    refine ⟨_, BuildFile.resolve_alike hbase hsources hsecrets, rfl, rfl, ?_⟩
    simp [Definition.root, Var.asTarget, resolveVar]

/-- A variable whose command needs a cache, a secret and the SSH agent. -/
def trusted : BuildFile.Var where
  base := "node"
  workdir := "/src"
  env := [("CI", "1")]
  caches := [⟨"npm", "/root/.npm"⟩]
  copies := .one ⟨some "alpine", "/etc/os-release", "/os"⟩
  secrets := .one ⟨"token", "/run/token"⟩
  ssh := true
  command := "npm view app version"

theorem Var.document_eq_target_trusted :
    ∃ d v, (BuildFile.alike "VERSION" trusted).resolve [⟨"token", "/token"⟩] = .ok d ∧
      d.vars = [v] ∧ d.vertices = [v.asTarget] ∧
      (v.document "frontend").mounts =
        [.cache "npm" "/root/.npm", .secret "token" "/run/token" true, .ssh true] ∧
      (d.document v.asTarget .empty "frontend").mounts =
        [.cache "npm" "/root/.npm", .secret "token" "/run/token" false, .ssh false] ∧
      v.document "frontend" = (d.document v.asTarget .empty "frontend").requiring true ∧
      v.document "frontend" ≠ d.document v.asTarget .empty "frontend" := by
  let v := resolveVar ("VERSION", trusted)
  have h := Var.document_eq_target v "frontend"
  obtain ⟨d, hresolve, hvertices, hvars, -⟩ :=
    h.2 "VERSION" trusted [⟨"token", "/token"⟩] rfl (by decide) (by decide) (by decide)
  obtain ⟨hvar, htarget, -⟩ := h.1 d
  have hmounts : (v.document "frontend").mounts =
      [.cache "npm" "/root/.npm", .secret "token" "/run/token" true, .ssh true] := by rfl
  have hunmarked : (d.document v.asTarget .empty "frontend").mounts =
      [.cache "npm" "/root/.npm", .secret "token" "/run/token" false, .ssh false] := by
    rw [htarget, Document.mounts_requiring, hmounts]
    rfl
  refine ⟨d, v, hresolve, hvars, hvertices, hmounts, hunmarked, hvar, fun heq => ?_⟩
  have hmarks := hmounts.symm.trans ((congrArg Document.mounts heq).trans hunmarked)
  exact absurd hmarks (by decide)

end ContainerBuild
