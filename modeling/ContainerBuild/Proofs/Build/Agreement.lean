import ContainerBuild.Proofs.Build.Plan
import ContainerBuild.Proofs.Dockerfile.Stages

/-!
# What a plan asks a document for

The plan and the document of a root come from two walks through the same graph.
The walk of the document follows all links, that of the plan neither copies nor
bases that have neither output nor dependencies, and what is listed before what
may differ. All that is planned has been emitted, though
(`planned_subset_emitted`), so the builder is never asked for a stage that the
document does not have (`plan_asks_document`).
-/

namespace ContainerBuild

open Relation

/-- A step asks for a stage of a target: for the target's own if it has no output, and
    else for the one that gives out the output, which starts from nothing and copies
    the artifact from the target's own. Only then there is a directory that receives
    something. -/
inductive Definition.Asks (d : Definition) (values : VarValues) (v : Vertex) :
    BuildStep → Dockerfile.Stage → Prop
  | own {s : Stage} : v.stage = some s → s.output = none →
    Asks d values v ⟨v.name, v.name, none⟩
      { base := s.base, platform := s.platform, label := some v.name
        instructions := d.instructions values s }
  | exported {s : Stage} {o : Output} : v.stage = some s → s.output = some o →
    Asks d values v ⟨v.name, v.name ++ "-out", some o.directory⟩
      { base := "scratch", label := some (v.name ++ "-out")
        instructions := [.copy (some v.name) o.artifact "/"] }

namespace Definition

variable {d : Definition} {root v : Vertex} {values : VarValues} {step : BuildStep}
  {stage : Dockerfile.Stage}

theorem Asks.label (h : d.Asks values v step stage) : stage.label = some step.stage := by
  cases h <;> rfl

theorem Asks.output_isSome_iff (h : d.Asks values v step stage) :
    step.output.isSome ↔ v.output.isSome := by
  rcases h with ⟨hs, ho⟩ | ⟨hs, ho⟩ <;> simp [Vertex.output, hs, ho]

/-- The step of a target asks for one of the target's stages. -/
theorem exists_asks (values : VarValues) (h : Builds step v) :
    ∃ stage ∈ d.stagesOf values v, d.Asks values v step stage := by
  rcases h with ⟨hs, ho⟩ | ho
  · obtain ⟨s, hs⟩ := Option.isSome_iff_exists.1 hs
    have houtput : s.output = none := by rwa [Vertex.output, hs] at ho
    exact ⟨_, by simp [stagesOf, hs], .own hs houtput⟩
  · obtain ⟨s, hs, houtput⟩ := Option.bind_eq_some_iff.1 ho
    refine ⟨Output.stage v.name _, ?_, .exported hs houtput⟩
    simp [stagesOf, hs, houtput]

variable (hd : d.WellFormed)

include hd in
/-- All that is planned has been emitted: what a target requires it leads to. -/
theorem planned_subset_emitted (root : Vertex) : d.planned root ⊆ d.emitted root := by
  intro v hv
  obtain ⟨hs, hreach⟩ := (mem_planned_iff hd).1 hv
  exact (mem_emitted_iff hd).2 ⟨hs, ReflTransGen.mono (fun _ _ => Requires.leads) _ _ hreach⟩

end Definition

open Definition

/-- Every step of the plan of a requested root builds a target of the definition, and
    asks for a stage of that target that is in the document of the same root: for the
    one that gives out the target's output if it has one, with a directory that
    receives it, and else for the target's own, without. -/
theorem plan_asks_document {file : BuildFile} {secrets : List SecretSource} {d : Definition}
    (h : file.resolve secrets = .ok d) {requested : List String} {root : Vertex}
    (hroot : d.root requested = .ok root) (values : VarValues) (frontend : String) :
    ∀ step ∈ d.plan root, ∃ v ∈ d.vertices, v.name = step.name ∧
      (step.output.isSome ↔ v.output.isSome) ∧
      ∃ stage ∈ (d.document root values frontend).stages,
        stage.label = some step.stage ∧ d.Asks values v step stage := by
  have hd := BuildFile.wellFormed_of_resolve h
  have hroot := ((d.root_outcome requested).of_ok hroot).isRoot
  intro step hstep
  obtain ⟨v, hv, hbuilds⟩ := exists_of_mem_right (builds_plan hd root).flip hstep
  have hemitted := planned_subset_emitted hd root hv
  obtain ⟨stage, hstage, hasks⟩ := exists_asks (d := d) values hbuilds
  refine ⟨v, mem_of_mem_emitted hd hroot hemitted, by rcases hbuilds with _ | _ <;> rfl,
    hasks.output_isSome_iff, stage, ?_, hasks.label, hasks⟩
  rw [document_stages_eq]
  exact List.mem_flatMap.2 ⟨v, hemitted, hstage⟩

theorem plan_asks_document_pipeline :
    ∃ d root step v, pipeline.resolve [] = .ok d ∧ d.root [] = .ok root ∧
      step ∈ d.plan root ∧ step = ⟨"docs", "docs-out", some "site"⟩ ∧
      ∃ stage ∈ (d.document root ⟨[("TAG", "v1")]⟩ "frontend").stages,
        stage.label = some step.stage ∧ d.Asks ⟨[("TAG", "v1")]⟩ v step stage := by
  let d := Resolution.resolved pipeline []
  have h : pipeline.resolve [] = .ok d := by rfl
  have hroot : d.root [] = .ok d.vertices[0] := by rfl
  have hstep : ⟨"docs", "docs-out", some "site"⟩ ∈ d.plan d.vertices[0] := by decide
  obtain ⟨v, _, _, _, hstage⟩ := plan_asks_document h hroot ⟨[("TAG", "v1")]⟩ "frontend" _ hstep
  exact ⟨d, _, _, v, h, hroot, hstep, rfl, hstage⟩

end ContainerBuild
