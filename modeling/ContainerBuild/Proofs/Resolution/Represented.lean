import ContainerBuild.Proofs.Resolution.Faults
import Mathlib.Data.List.Forall2

/-!
# What a build file is resolved to

A definition *represents* a build file if it has a vertex for every target and
a variable for every variable, in declared order, each with everything that is
written, where the names of targets have become places (`RepresentedBy`).

A build file is resolved exactly if nothing is wrong with it, and then to a
definition that represents it (`resolve_iff_resolvable`).
-/

namespace ContainerBuild

/-- A place of a definition is that of the target of a name. -/
def Definition.Names (d : Definition) (place : Nat) (name : String) : Prop :=
  ∃ v, d.vertices[place]? = some v ∧ v.name = name

namespace BuildFile

variable (file : BuildFile) (d : Definition)

/-- A source that names a declared target has become its place, and any other
    one is an image. -/
inductive SourceIs : String → CopySource → Prop
  | vertex {name : String} {place : Nat} : d.Names place name → SourceIs name (.vertex place)
  | image {name : String} : ¬Declares file.targets name → SourceIs name (.image name)

/-- A base that names a declared target has become its place. -/
inductive ParentIs : String → Option Nat → Prop
  | target {name : String} {place : Nat} : d.Names place name → ParentIs name (some place)
  | image {name : String} : ¬Declares file.targets name → ParentIs name none

/-- A copy of a target is as it is written. -/
structure CopyIs (c : Copy) (c' : ContainerBuild.Copy) : Prop where
  source : Option.Rel (SourceIs file d) c.source c'.source
  src : c'.src = c.src
  dst : c'.dst = c.dst

/-- A stage is the one that a target describes. -/
structure StageIs (t : Target) (stage : Stage) : Prop where
  base : t.base = some stage.base
  platform : stage.platform = t.platform
  workdir : stage.workdir = t.workdir
  env : stage.env = t.env
  caches : stage.caches = t.caches
  copies : List.Forall₂ (CopyIs file d) t.copies.toList stage.copies
  network : stage.network = t.network
  ssh : stage.ssh = t.ssh
  secrets : stage.secrets = t.secrets.toList
  command : stage.command = t.command
  output : stage.output = t.output

/-- A vertex is the one of a target: an aggregate, if the target has nothing but
    dependencies, and else one with the stage that the target describes. -/
inductive VertexIs : String × Entry → Vertex → Prop
  | aggregate {name : String} {entry : Entry} {places : List Nat} :
    ¬entry.toTarget.DescribesStage →
    List.Forall₂ (fun n place => d.Names place n) entry.toTarget.dependsOn places →
    VertexIs (name, entry) (.aggregate name places)
  | stage {name : String} {entry : Entry} {stage : Stage} {parent : Option Nat}
    {places : List Nat} :
    entry.toTarget.DescribesStage → StageIs file d entry.toTarget stage →
    ParentIs file d stage.base parent →
    List.Forall₂ (fun n place => d.Names place n) entry.toTarget.dependsOn places →
    VertexIs (name, entry) { name, stage := some stage, parent, dependsOn := places }

/-- A variable is as it is written. -/
structure VarIs (x : String × Var) (v : ContainerBuild.Var) : Prop where
  name : v.name = x.1
  base : v.base = x.2.base
  platform : v.platform = x.2.platform
  workdir : v.workdir = x.2.workdir
  env : v.env = x.2.env
  caches : v.caches = x.2.caches
  copies : v.copies = x.2.copies.toList.map fun c => ⟨c.source, c.src, c.dst⟩
  secrets : v.secrets = x.2.secrets.toList
  network : v.network = x.2.network
  ssh : v.ssh = x.2.ssh
  command : v.command = x.2.command

/-- A definition has a vertex for every target and a variable for every
    variable of a file, in declared order. -/
structure RepresentedBy : Prop where
  vertices : List.Forall₂ (VertexIs file d) file.targets d.vertices
  vars : List.Forall₂ VarIs file.vars d.vars

end BuildFile

namespace Resolution

open BuildFile (Entry Declares Resolvable SourceIs ParentIs CopyIs StageIs VertexIs VarIs)

variable {s : Scope} {file : BuildFile} {secrets : List SecretSource} {name : String}

theorem resolveEntry_toTarget {entry : Entry} :
    resolveEntry s (name, entry) = resolveEntry s (name, .target entry.toTarget) := by
  cases entry <;> rfl

theorem resolveEntry_name (x : String × Entry) : (resolveEntry s x).name = x.1 := by
  obtain ⟨name, entry⟩ := x
  cases entry <;> rfl

theorem place?_eq_none_iff : s.place? name = none ↔ ¬Declares s.targets name := by
  rw [Scope.place?, List.findIdx?_eq_none_iff, Declares, List.mem_map, not_exists]
  simp only [beq_eq_false_iff_ne, not_and, ne_eq]

/-- The place of a name is that of its target. -/
theorem names_of_place? {place : Nat} (h : (file.scope secrets).place? name = some place) :
    (resolved file secrets).Names place name := by
  obtain ⟨hlt, heq, _⟩ := List.findIdx?_eq_some_iff_getElem.1 h
  refine ⟨resolveEntry (file.scope secrets) file.targets[place], ?_, ?_⟩
  · exact (List.getElem?_map ..).trans (congrArg _ (List.getElem?_eq_getElem hlt))
  · rw [resolveEntry_name]
    exact beq_iff_eq.1 heq

theorem parentIs_place? : ParentIs file (resolved file secrets) name
    ((file.scope secrets).place? name) := by
  cases h : (file.scope secrets).place? name with
  | none => exact .image (place?_eq_none_iff.1 h)
  | some place => exact .target (names_of_place? h)

/-- Dependencies that are declared become their places, in written order. -/
theorem forall₂_filterMap_place? {names : List String}
    (h : ∀ n ∈ names, Declares file.targets n) :
    List.Forall₂ (fun n place => (resolved file secrets).Names place n) names
      (names.filterMap (file.scope secrets).place?) := by
  induction names with
  | nil => exact .nil
  | cons n names ih =>
    cases hn : (file.scope secrets).place? n with
    | none => exact absurd (h n List.mem_cons_self) (place?_eq_none_iff.1 hn)
    | some place =>
      rw [List.filterMap_cons_some hn]
      exact .cons (names_of_place? hn) (ih fun m hm => h m (List.mem_cons_of_mem _ hm))

theorem copyIs_resolveCopy (c : BuildFile.Copy) :
    CopyIs file (resolved file secrets) c (resolveCopy (file.scope secrets) c) := by
  refine ⟨?_, rfl, rfl⟩
  unfold resolveCopy
  cases c.source with
  | none => exact .none
  | some name =>
    refine .some ?_
    dsimp only
    cases h : (file.scope secrets).place? name with
    | none => exact .image (place?_eq_none_iff.1 h)
    | some place => exact .vertex (names_of_place? h)

theorem stageIs_resolveStage {t : BuildFile.Target} (hbase : t.base ≠ none) :
    StageIs file (resolved file secrets) t (resolveStage (file.scope secrets) t) := by
  obtain ⟨base, hb⟩ := Option.ne_none_iff_exists'.1 hbase
  refine ⟨?_, rfl, rfl, rfl, rfl, ?_, rfl, rfl, rfl, rfl, rfl⟩
  · rw [resolveStage, hb, Option.getD_some]
  · exact List.forall₂_map_right_iff.2 (List.forall₂_same.2 fun c _ => copyIs_resolveCopy c)

theorem vertexIs_resolveEntry (h : Resolvable file secrets) {entry : Entry}
    (hmem : (name, entry) ∈ file.targets) :
    VertexIs file (resolved file secrets) (name, entry)
      (resolveEntry (file.scope secrets) (name, entry)) := by
  have hplaces : List.Forall₂ (fun n place => (resolved file secrets).Names place n) _ _ :=
    forall₂_filterMap_place? (h.dependencies name entry hmem)
  rw [resolveEntry_toTarget]
  cases hs : entry.toTarget.hasStage with
  | true =>
    have hstage := BuildFile.Target.hasStage_iff.1 hs
    have hbase := h.base name entry hmem hstage
    obtain ⟨base, hb⟩ := Option.ne_none_iff_exists'.1 hbase
    simp only [resolveEntry, hs, if_true]
    refine .stage hstage (stageIs_resolveStage hbase) ?_ hplaces
    rw [resolveStage, hb]
    exact parentIs_place?
  | false =>
    have hstage := mt BuildFile.Target.hasStage_iff.2 (Bool.eq_false_iff.1 hs)
    simp only [resolveEntry, hs, Bool.false_eq_true, if_false]
    exact .aggregate hstage hplaces

theorem representedBy_resolved (h : Resolvable file secrets) :
    file.RepresentedBy (resolved file secrets) := by
  constructor
  · exact List.forall₂_map_right_iff.2
      (List.forall₂_same.2 fun _ hmem => vertexIs_resolveEntry h hmem)
  · exact List.forall₂_map_right_iff.2
      (List.forall₂_same.2 fun _ _ => ⟨rfl, rfl, rfl, rfl, rfl, rfl, rfl, rfl, rfl, rfl, rfl⟩)

end Resolution

open Resolution

/-- A build file is resolved exactly if nothing is wrong with it. The definition
    then represents the file, and an error reports something that is wrong. -/
theorem resolve_iff_resolvable (file : BuildFile) (secrets : List SecretSource) :
    ((∃ d, file.resolve secrets = .ok d) ↔ file.Resolvable secrets) ∧
      (∀ d, file.resolve secrets = .ok d → file.RepresentedBy d) ∧
      (∀ e, file.resolve secrets = .error e → file.Fault secrets e) := by
  have houtcome := resolve_outcome file secrets
  refine ⟨⟨?_, fun h => ?_⟩, fun d hd => ?_, fun e he => houtcome.of_error he⟩
  · rintro ⟨d, hd⟩
    exact (houtcome.of_ok hd).2.1
  · cases hr : file.resolve secrets with
    | ok d => exact ⟨d, rfl⟩
    | error e => exact absurd h (houtcome.of_error hr).not_resolvable
  · obtain ⟨rfl, h, _⟩ := houtcome.of_ok hd
    exact representedBy_resolved h

end ContainerBuild
