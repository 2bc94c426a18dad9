import ContainerBuild.Proofs.Build.Roots
import ContainerBuild.Proofs.Dockerfile.Stages
import Mathlib.Data.List.Pairwise
import Mathlib.Data.Option.Basic

/-!
# The names of a document's stages

The targets of a definition refer to each other by their places, the stages of
a document by their names (`Vertex.stageNames`). A name says less than a place:

* the stage of an output bears a name that a target may have too, and this is
  the only way in which two stages get one name (`document_labels_nodup_iff`);
* a target without a stage gives its name to no stage, so what starts or copies
  from it finds its name only if an output happens to bear it
  (`document_bound_iff`).
-/

namespace ContainerBuild

open Relation
open Dockerfile (outputStageName)

/-- The names of the stages of a target, if it has one: its own, and that of
    its output. -/
def Vertex.stageNames (v : Vertex) : List String :=
  v.name :: v.output.toList.map fun _ => outputStageName v.name

theorem outputStageName_ne (name : String) : outputStageName name ≠ name := by
  intro h
  have hlength := congrArg String.length h
  rw [outputStageName, String.length_append] at hlength
  exact absurd hlength (by simp)

theorem outputStageName_inj {a b : String} : outputStageName a = outputStageName b ↔ a = b :=
  String.append_left_inj "-out"

namespace Vertex

variable {v u : Vertex} {name : String}

theorem mem_stageNames :
    name ∈ v.stageNames ↔ name = v.name ∨ v.output.isSome ∧ name = outputStageName v.name := by
  rw [stageNames, List.mem_cons]
  cases v.output <;> simp

theorem stageNames_nodup (v : Vertex) : v.stageNames.Nodup := by
  rw [stageNames]
  cases v.output with
  | none => exact List.nodup_singleton _
  | some _ =>
    refine List.nodup_cons.2 ⟨fun h => ?_, List.nodup_singleton _⟩
    exact outputStageName_ne v.name (List.mem_singleton.1 h).symm

/-- Targets of different names share a name of their stages only if one of them
    is called like the output of the other. -/
theorem stageNames_disjoint_iff (hne : v.name ≠ u.name) :
    v.stageNames.Disjoint u.stageNames ↔
      (u.output.isSome → v.name ≠ outputStageName u.name) ∧
      (v.output.isSome → u.name ≠ outputStageName v.name) := by
  constructor
  · intro h
    refine ⟨fun hu heq => h (mem_stageNames.2 (.inl heq.symm)) (mem_stageNames.2 (.inr ⟨hu, rfl⟩)),
      fun hv heq => h (mem_stageNames.2 (.inr ⟨hv, rfl⟩)) (mem_stageNames.2 (.inl heq.symm))⟩
  · rintro ⟨hvu, huv⟩ name hv hu
    -- Two own names and two names of outputs differ, so one of each is left.
    rcases mem_stageNames.1 hv with rfl | ⟨hov, rfl⟩
    · rcases mem_stageNames.1 hu with heq | ⟨hou, heq⟩
      · exact hne heq
      · exact hvu hou heq
    · rcases mem_stageNames.1 hu with heq | ⟨_, heq⟩
      · exact huv hov heq.symm
      · exact hne (outputStageName_inj.1 heq)

end Vertex

theorem Block.map_label {v : Vertex} {block : List Dockerfile.Stage} (h : Block v block) :
    block.map (·.label) = v.stageNames.map some := by
  cases h with
  | own ho hown => simp [Vertex.stageNames, ho, hown]
  | exported ho hown hexported =>
    simp [Vertex.stageNames, ho, hown, hexported, outputStageName]

namespace Definition

variable {d : Definition} {root v u : Vertex} {values : VarValues} {l : List Vertex}

theorem map_label_flatMap (hl : ∀ v ∈ l, v.stage.isSome) :
    (l.flatMap (d.stagesOf values)).map (·.label) = (l.flatMap Vertex.stageNames).map some := by
  rw [List.map_flatMap, List.map_flatMap]
  exact List.flatMap_congr fun v hv => (block_stagesOf values (hl v hv)).map_label

/-- The names of a document's stages are those of the emitted targets. -/
theorem document_labels_eq (hd : d.WellFormed) (root : Vertex) (values : VarValues)
    (frontend : String) :
    (d.document root values frontend).stages.map (·.label) =
      ((d.emitted root).flatMap Vertex.stageNames).map some := by
  rw [document_stages_eq]
  exact map_label_flatMap fun v hv => ((mem_emitted_iff hd).1 hv).1

/-- A name is that of a stage of some targets. -/
theorem exists_label_iff {name : String} (hl : ∀ v ∈ l, v.stage.isSome) :
    (∃ stage ∈ l.flatMap (d.stagesOf values), stage.label = some name) ↔
      ∃ v ∈ l, name ∈ v.stageNames := by
  rw [← List.mem_map, map_label_flatMap hl, List.mem_map_of_injective (Option.some_injective _),
    List.mem_flatMap]

/-- The names of the stages of some targets repeat only if one of the targets is
    called like the output of one of them. -/
theorem flatMap_stageNames_nodup_iff (hl : (l.map (·.name)).Nodup) :
    (l.flatMap Vertex.stageNames).Nodup ↔
      ∀ u ∈ l, ∀ v ∈ l, u.output.isSome → v.name ≠ outputStageName u.name := by
  have hne : l.Pairwise fun v u => v.name ≠ u.name := List.pairwise_map.1 hl
  rw [List.nodup_flatMap]
  constructor
  · rintro ⟨_, hdisjoint⟩ u hu v hv ho
    by_cases huv : v = u
    · exact huv ▸ (outputStageName_ne v.name).symm
    · have hsymm : Std.Symm (Function.onFun List.Disjoint Vertex.stageNames) :=
        ⟨fun _ _ h => List.disjoint_symm h⟩
      have hname : v.name ≠ u.name := fun h => huv (List.inj_on_of_nodup_map hl hv hu h)
      have hstages := hdisjoint.forall hv hu huv
      exact ((Vertex.stageNames_disjoint_iff hname).1 hstages).1 ho
  · intro h
    refine ⟨fun v _ => v.stageNames_nodup, hne.imp_of_mem fun {v u} hv hu hvu => ?_⟩
    exact (Vertex.stageNames_disjoint_iff hvu).2 ⟨h u hu v hv, h v hv u hu⟩

/-- The stage of a target starts from the stage of another one or copies from
    it. -/
def Uses (d : Definition) (v u : Vertex) : Prop :=
  d.Links .base v u ∨ d.Links .copy v u

/-- What the stage of an emitted target starts from or copies from has given its
    name to a stage in front of that stage. -/
def Bound (d : Definition) (root : Vertex) (values : VarValues) : Prop :=
  ∀ before v after, d.emitted root = before ++ v :: after → ∀ u, d.Uses v u →
    ∃ stage ∈ before.flatMap (d.stagesOf values), stage.label = some u.name

theorem Uses.leads (h : d.Uses v u) : d.Leads v u :=
  h.elim (fun hl => ⟨_, hl⟩) fun hl => ⟨_, hl⟩

/-- The own stage of a target calls by their names the targets that the target
    uses. -/
theorem exists_own_stage (hd : d.WellFormed) (hv : v ∈ d.vertices) (hs : v.stage.isSome)
    (values : VarValues) :
    ∃ own exported, d.stagesOf values v = own :: exported ∧ own.label = some v.name ∧
      (∀ u, d.Links .base v u → own.base = u.name) ∧
      (∀ u, d.Links .copy v u → ∃ src dst, .copy (some u.name) src dst ∈ own.instructions) := by
  obtain ⟨stage, hs⟩ := Option.isSome_iff_exists.1 hs
  simp only [stagesOf, hs]
  refine ⟨_, _, rfl, rfl, fun u hl => hd.base_eq v hv stage hs u hl, fun u hl => ?_⟩
  cases hl with
  | @copy _ _ _ c place hs' hc hsource hu =>
    obtain rfl := Option.some.inj (hs.symm.trans hs')
    have hname : d.sourceName (.vertex place) = u.name := by rw [sourceName, nameAt, hu]
    have hmem : (Dockerfile.Instruction.copy (some u.name) c.src c.dst) ∈
        stage.copies.map fun c => .copy (c.source.map d.sourceName) c.src c.dst := by
      refine List.mem_map.2 ⟨c, hc, ?_⟩
      rw [hsource, Option.map_some, hname]
    -- The copies stand between the environment and the command.
    exact ⟨c.src, c.dst, List.mem_append_left _ (List.mem_append_right _ hmem)⟩

/-- What an emitted target uses has given its name to a stage in front of it if
    it has a stage, or if it is called like the output of what is in front. -/
theorem exists_label_before_iff (hd : d.WellFormed) (hroot : d.IsRoot root)
    {before after : List Vertex} (horder : d.emitted root = before ++ v :: after)
    (huse : d.Uses v u) :
    (∃ stage ∈ before.flatMap (d.stagesOf values), stage.label = some u.name) ↔
      u.stage.isSome ∨ ∃ w, w.output.isSome ∧ u.name = outputStageName w.name ∧
        [w, v].Sublist (d.emitted root) := by
  have hbefore : ∀ w ∈ before, w ∈ d.emitted root := fun w hw =>
    horder ▸ List.mem_append_left _ hw
  have hnodup := (emitted_ordered hd root).nodup
  rw [exists_label_iff fun w hw => ((mem_emitted_iff hd).1 (hbefore w hw)).1]
  constructor
  · rintro ⟨w, hw, hname⟩
    rcases Vertex.mem_stageNames.1 hname with hname | ⟨ho, hname⟩
    · -- The name of the target itself: it is the one in front.
      have hwu := hd.eq_of_name_eq huse.leads.mem
        (mem_of_mem_emitted hd hroot (hbefore w hw)) hname
      exact .inl (hwu ▸ ((mem_emitted_iff hd).1 (hbefore w hw)).1)
    · -- The name of an output in front.
      refine .inr ⟨w, ho, hname, ?_⟩
      rw [horder]
      exact (List.singleton_sublist.2 hw).append
        (List.singleton_sublist.2 List.mem_cons_self)
  · have hv : v ∈ d.emitted root := horder ▸ List.mem_append_cons_self
    rw [horder] at hnodup
    rintro (hs | ⟨w, ho, hname, hsub⟩)
    · have hsub := (emitted_ordered hd root).pair_sublist hv (.single ⟨hs, .single huse.leads⟩)
      rw [horder] at hsub
      exact ⟨u, mem_of_pair_sublist hnodup hsub, Vertex.mem_stageNames.2 (.inl rfl)⟩
    · rw [horder] at hsub
      exact ⟨w, mem_of_pair_sublist hnodup hsub, Vertex.mem_stageNames.2 (.inr ⟨ho, hname⟩)⟩

end Definition

open Definition

/-- Every stage of the document of a root has a name. No two have the same
    exactly if no target with a stage that the root leads to is called like the
    output of another one. -/
theorem document_labels_nodup_iff {file : BuildFile} {secrets : List SecretSource}
    {d : Definition} (h : file.resolve secrets = .ok d) {root : Vertex} (hroot : d.IsRoot root)
    (values : VarValues) (frontend : String) :
    (∀ stage ∈ (d.document root values frontend).stages, stage.label.isSome) ∧
      (((d.document root values frontend).stages.map (·.label)).Nodup ↔
        ∀ u v, ReflTransGen d.Leads root u → ReflTransGen d.Leads root v →
          u.output.isSome → v.stage.isSome → v.name ≠ outputStageName u.name) := by
  have hd := BuildFile.wellFormed_of_resolve h
  have hlabels := document_labels_eq hd root values frontend
  constructor
  · intro stage hstage
    have hmem := List.mem_map_of_mem (f := (·.label)) hstage
    rw [hlabels] at hmem
    obtain ⟨name, _, hname⟩ := List.mem_map.1 hmem
    rw [← hname]
    rfl
  · rw [hlabels, List.nodup_map_iff (Option.some_injective _),
      flatMap_stageNames_nodup_iff (emitted_names_nodup hd hroot)]
    constructor
    · intro hne u v hu hv ho hs
      have hsu : u.stage.isSome := Option.isSome_of_isSome_bind ho
      exact hne u ((mem_emitted_iff hd).2 ⟨hsu, hu⟩) v ((mem_emitted_iff hd).2 ⟨hs, hv⟩) ho
    · intro hne u hu v hv ho
      obtain ⟨_, hu⟩ := (mem_emitted_iff hd).1 hu
      obtain ⟨hs, hv⟩ := (mem_emitted_iff hd).1 hv
      exact hne u v hu hv ho hs

theorem document_labels_nodup_layered :
    ∃ d root, layered.resolve [] = .ok d ∧ d.IsRoot root ∧ root.output.isSome ∧
      ((d.document root .empty "frontend").stages.map (·.label)).Nodup := by
  let d := Resolution.resolved layered []
  have h : layered.resolve [] = .ok d := by rfl
  have hroot : d.IsRoot d.vertices[0] := .target (List.getElem_mem _)
  have hnames : ∀ u ∈ d.vertices, ∀ v ∈ d.vertices, v.name ≠ outputStageName u.name := by decide
  refine ⟨d, _, h, hroot, rfl, ?_⟩
  refine (document_labels_nodup_iff h hroot .empty "frontend").2.2 fun u v hu hv ho hs => ?_
  exact hnames u (hroot.mem_of_reaches hu (Option.isSome_of_isSome_bind ho))
    v (hroot.mem_of_reaches hv hs)

/-- A target that is called like the output of another one. -/
def namesakes : BuildFile where
  apiVersion := BuildFile.supportedVersion
  targets := [
    ("all", .aggregate ["x", "x-out"]),
    ("x", .target { base := some "alpine", output := some ⟨"/x", "bin"⟩ }),
    ("x-out", .target { base := some "alpine" })]

theorem not_nodup_labels_namesakes :
    ∃ d root, namesakes.resolve [] = .ok d ∧ d.root [] = .ok root ∧ root ∈ d.vertices ∧
      ¬((d.document root .empty "frontend").stages.map (·.label)).Nodup :=
  ⟨Resolution.resolved namesakes [], _, by rfl, by rfl, by decide, by decide⟩

/-- The own stage of an emitted target stands right behind the stages of what
    was emitted before, and calls what the target uses by name. Everything it
    calls so is the name of a stage in front of it exactly if every target that
    is started or copied from has a stage, or is called like the output of
    something that was emitted before. -/
theorem document_bound_iff {file : BuildFile} {secrets : List SecretSource} {d : Definition}
    (h : file.resolve secrets = .ok d) {requested : List String} {root : Vertex}
    (hroot : d.root requested = .ok root) (values : VarValues) (frontend : String) :
    (∀ before v after, d.emitted root = before ++ v :: after →
      ∃ own rest, (d.document root values frontend).stages =
          before.flatMap (d.stagesOf values) ++ own :: rest ∧
        own.label = some v.name ∧
        (∀ u, d.Links .base v u → own.base = u.name) ∧
        (∀ u, d.Links .copy v u → ∃ src dst, .copy (some u.name) src dst ∈ own.instructions)) ∧
    (d.Bound root values ↔
      ∀ v u, ReflTransGen d.Leads root v → v.stage.isSome → d.Uses v u →
        u.stage.isSome ∨ ∃ w, w.output.isSome ∧ u.name = outputStageName w.name ∧
          [w, v].Sublist (d.emitted root)) := by
  have hd := BuildFile.wellFormed_of_resolve h
  have hroot := ((d.root_outcome requested).of_ok hroot).isRoot
  constructor
  · intro before v after horder
    have hv : v ∈ d.emitted root := horder ▸ List.mem_append_cons_self
    obtain ⟨own, exported, hstages, hown⟩ :=
      exists_own_stage hd (mem_of_mem_emitted hd hroot hv) ((mem_emitted_iff hd).1 hv).1 values
    refine ⟨own, exported ++ after.flatMap (d.stagesOf values), ?_, hown⟩
    rw [document_stages_eq, horder, List.flatMap_append, List.flatMap_cons, hstages,
      List.cons_append]
  · constructor
    · intro hbound v u hv hs huse
      obtain ⟨before, after, horder⟩ := List.append_of_mem ((mem_emitted_iff hd).2 ⟨hs, hv⟩)
      exact (exists_label_before_iff hd hroot horder huse).1 (hbound _ _ _ horder u huse)
    · intro hused before v after horder u huse
      have hv : v ∈ d.emitted root := horder ▸ List.mem_append_cons_self
      obtain ⟨hs, hv⟩ := (mem_emitted_iff hd).1 hv
      exact (exists_label_before_iff hd hroot horder huse).2 (hused v u hv hs huse)

theorem document_bound_layered :
    ∃ d root, layered.resolve [] = .ok d ∧ d.root ["all", "gen"] = .ok root ∧
      d.Bound root .empty := by
  let d := Resolution.resolved layered []
  have h : layered.resolve [] = .ok d := by rfl
  have hroot : d.root ["all", "gen"] = .ok (.aggregate "all" [0, 1]) := by rfl
  have hstage : ∀ u ∈ d.vertices, u.stage.isSome := by decide
  refine ⟨d, _, h, hroot, ?_⟩
  refine (document_bound_iff h hroot .empty "frontend").2.2 fun v u _ _ huse => ?_
  exact .inl (hstage u huse.leads.mem)

/-- A target that starts from an aggregate. -/
def baseless : BuildFile where
  apiVersion := BuildFile.supportedVersion
  targets := [
    ("agg", .aggregate ["a"]),
    ("a", .target { base := some "alpine" }),
    ("b", .target { base := some "agg" })]

theorem not_bound_baseless :
    ∃ d root, baseless.resolve [] = .ok d ∧ d.root ["b"] = .ok root ∧
      ¬d.Bound root .empty := by
  let d := Resolution.resolved baseless []
  refine ⟨d, d.vertices[2], by rfl, by rfl, fun hbound => ?_⟩
  have huse : d.Uses d.vertices[2] d.vertices[0] := .inl (.base rfl rfl)
  have horder : d.emitted d.vertices[2] = [d.vertices[1]] ++ d.vertices[2] :: [] := by rfl
  obtain ⟨stage, hstage, hlabel⟩ := hbound _ _ _ horder _ huse
  have hlabels : some "agg" ∈ ([d.vertices[1]].flatMap (d.stagesOf .empty)).map (·.label) :=
    List.mem_map.2 ⟨stage, hstage, hlabel⟩
  exact absurd hlabels (by decide)

end ContainerBuild
