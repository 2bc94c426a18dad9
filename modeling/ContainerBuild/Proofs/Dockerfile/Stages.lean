import ContainerBuild.Dockerfile.Generation
import ContainerBuild.Proofs.Definition.Walk

/-!
# The stages of a target's document

A document is made of *blocks*: the stage of a target and, right behind it, the
stage of its output, if it has one (`Block`). The targets with a block are those
with a stage that the root leads to, each once, and each behind all that it
leads to (`document_stages_ordered`). Targets without a stage have no block, but
what they lead to comes before what leads to them.
-/

namespace ContainerBuild

open Relation

/-- The stages that a document has for a target: its own, which bears its name,
    and that of its output, if it has one. -/
inductive Block (v : Vertex) : List Dockerfile.Stage → Prop
  | own {own : Dockerfile.Stage} : v.output = none → own.label = some v.name → Block v [own]
  | exported {own exported : Dockerfile.Stage} {o : Output} :
    v.output = some o → own.label = some v.name → exported.label = some (v.name ++ "-out") →
    Block v [own, exported]

namespace Definition

variable {d : Definition} {root v u : Vertex}

/-- The targets with a block in the document of a root, in the order of the
    blocks. -/
def emitted (d : Definition) (root : Vertex) : List Vertex :=
  (d.postorder d.referenced root).filter (·.stage.isSome)

theorem block_stagesOf (values : VarValues) (hv : v.stage.isSome) :
    Block v (d.stagesOf values v) := by
  obtain ⟨stage, hs⟩ := Option.isSome_iff_exists.1 hv
  have houtput : v.output = stage.output := by rw [Vertex.output, hs, Option.bind_some]
  simp only [stagesOf, hs]
  cases ho : stage.output with
  | none => exact .own (houtput.trans ho) rfl
  | some o => exact .exported (houtput.trans ho) rfl rfl

theorem flatMap_stagesOf_filter (values : VarValues) (l : List Vertex) :
    (l.filter (·.stage.isSome)).flatMap (d.stagesOf values) = l.flatMap (d.stagesOf values) := by
  induction l with
  | nil => rfl
  | cons v l ih =>
    cases hs : v.stage with
    | none =>
      rw [List.filter_cons_of_neg (by rw [hs]; exact Bool.false_ne_true), List.flatMap_cons, ih,
        stagesOf, hs, List.nil_append]
    | some stage =>
      rw [List.filter_cons_of_pos (by rw [hs]; rfl), List.flatMap_cons, List.flatMap_cons, ih]

/-- A document consists of the blocks of the emitted targets. -/
theorem document_stages_eq (values : VarValues) (frontend : String) :
    (d.document root values frontend).stages = (d.emitted root).flatMap (d.stagesOf values) :=
  (flatMap_stagesOf_filter values _).symm

variable (hd : d.WellFormed)

include hd in
theorem mem_emitted_iff : v ∈ d.emitted root ↔ v.stage.isSome ∧ ReflTransGen d.Leads root v :=
  mem_staged_iff hd (fun _ _ => mem_referenced) fun _ _ => id

include hd in
/-- The emitted targets are ordered by the ways between them. -/
theorem emitted_ordered (root : Vertex) :
    Ordered (fun v u => u.stage.isSome = true ∧ TransGen d.Leads v u) (d.emitted root) :=
  staged_ordered hd (fun _ _ => mem_referenced) (fun _ _ => id) root

include hd in
theorem mem_of_mem_emitted (hroot : d.IsRoot root) (hv : v ∈ d.emitted root) : v ∈ d.vertices :=
  mem_of_mem_staged hd (fun _ _ => mem_referenced) (fun _ _ => id) hroot hv

include hd in
/-- No two emitted targets have one name. -/
theorem emitted_names_nodup (hroot : d.IsRoot root) :
    ((d.emitted root).map (·.name)).Nodup :=
  staged_names_nodup hd (fun _ _ => mem_referenced) (fun _ _ => id) hroot

end Definition

open Definition

/-- The document of a root has a block for exactly the targets with a stage that
    the root leads to, each once, and each behind all that it leads to. -/
theorem document_stages_ordered {file : BuildFile} {secrets : List SecretSource} {d : Definition}
    (h : file.resolve secrets = .ok d) {root : Vertex} (hroot : d.IsRoot root)
    (values : VarValues) (frontend : String) :
    ∃ order : List Vertex,
      (d.document root values frontend).stages = order.flatMap (d.stagesOf values) ∧
      (∀ v ∈ order, Block v (d.stagesOf values v)) ∧
      (∀ v, v ∈ order ↔ v.stage.isSome ∧ ReflTransGen d.Leads root v) ∧
      (order.map (·.name)).Nodup ∧
      (∀ v ∈ order, ∀ u, u.stage.isSome → TransGen d.Leads v u → [u, v].Sublist order) := by
  have hd := BuildFile.wellFormed_of_resolve h
  refine ⟨d.emitted root, document_stages_eq values frontend, fun v hv => ?_,
    fun v => mem_emitted_iff hd, emitted_names_nodup hd hroot, fun v hv u hu hvu => ?_⟩
  · exact block_stagesOf values ((mem_emitted_iff hd).1 hv).1
  · exact (emitted_ordered hd root).pair_sublist hv (.single ⟨hu, hvu⟩)

/-- Three targets, each with a stage. One has the name of aggregates. -/
def layered : BuildFile where
  apiVersion := BuildFile.supportedVersion
  targets := [
    ("all", .target {
      base := some "base"
      dependsOn := ["gen"]
      copies := .one { source := some "gen", src := "/src", dst := "." }
      output := some ⟨"/out/app", "bin"⟩ }),
    ("gen", .target { base := some "base", command := some "go generate" }),
    ("base", .target { base := some "golang" })]

theorem document_stages_ordered_layered :
    ∃ d root, layered.resolve [] = .ok d ∧ root = .aggregate "all" [0, 1] ∧ d.IsRoot root ∧
      (d.document root .empty "frontend").stages.map (·.label) =
        [some "base", some "gen", some "all", some "all-out"] ∧
      ∃ order : List Vertex,
        (d.document root .empty "frontend").stages = order.flatMap (d.stagesOf .empty) ∧
        (order.map (·.name)).Nodup ∧
        ∀ v, v ∈ order ↔ v.stage.isSome ∧ ReflTransGen d.Leads root v := by
  have h : layered.resolve [] = .ok (Resolution.resolved layered []) := by rfl
  have hroot : (Resolution.resolved layered []).IsRoot (.aggregate "all" [0, 1]) :=
    .aggregate (by decide)
  obtain ⟨order, hstages, _, hmem, hnodup, _⟩ :=
    document_stages_ordered h hroot .empty "frontend"
  exact ⟨_, _, h, rfl, hroot, by decide, order, hstages, hnodup, hmem⟩

end ContainerBuild
