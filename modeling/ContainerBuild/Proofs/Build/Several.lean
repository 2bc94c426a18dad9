import ContainerBuild.Proofs.Build.Plan
import ContainerBuild.Proofs.Dockerfile.Stages

/-!
# Several targets in one build

A request for several targets is one for an aggregate of them. What each of them
leads to by itself may overlap with the others', and a target may be asked for
twice, but nothing is built twice and no stage is in the document twice: the
plan of the aggregate is the plans of the targets, in the order of the request,
without the steps of what has been built before, and its document has the blocks
of their documents without those of targets that have one before
(`several_targets_shared`).
-/

namespace ContainerBuild

open Relation

/-- Leaving out all but the first occurrences of targets leaves out the steps of
    targets that had one before. -/
theorem Vertex.filterMap_step?_eraseDups {l : List Vertex} (hs : ∀ v ∈ l, v.stage.isSome)
    (hname : ∀ v ∈ l, ∀ u ∈ l, v.name = u.name → v = u) :
    l.eraseDups.filterMap step? = (l.filterMap step?).eraseDupsBy (·.name == ·.name) := by
  induction hn : l.length using Nat.strongRecOn generalizing l with
  | ind n ih =>
    cases l with
    | nil => rfl
    | cons v l =>
      have hmem : ∀ u ∈ l.filter (!· == v), u ∈ v :: l := fun u hu =>
        List.mem_cons_of_mem _ (List.mem_of_mem_filter hu)
      have hrest := ih _ (hn ▸ Nat.lt_succ_of_le (List.length_filter_le _ l))
        (fun u hu => hs u (hmem u hu)) (fun u hu w hw => hname u (hmem u hu) w (hmem w hw)) rfl
      obtain ⟨step, hstep, _⟩ := exists_step (hs v List.mem_cons_self)
      rw [List.eraseDups_cons, List.filterMap_cons_some hstep, List.filterMap_cons_some hstep,
        List.eraseDupsBy_cons, hrest, List.filterMap_filter, List.filter_filterMap]
      congr 2
      refine List.filterMap_congr fun u hu => ?_
      -- The other targets are those of other names, and so are their steps.
      obtain ⟨step', hstep', _⟩ := exists_step (hs u (List.mem_cons_of_mem _ hu))
      have heq : u = v ↔ step'.name = step.name := by
        rw [name_of_step? hstep, name_of_step? hstep']
        exact ⟨congrArg _, hname u (List.mem_cons_of_mem _ hu) v List.mem_cons_self⟩
      rw [hstep', Option.filter_some]
      by_cases huv : u = v
      · simp [huv, heq.1 huv]
      · simp [huv, mt heq.2 huv]

namespace Definition

variable {d : Definition} {requested : List String} {places : List Nat}

/-- A request for what is declared has a root. -/
theorem exists_root (h : ∀ name ∈ asked requested, name ∈ d.vertices.map (·.name)) :
    ∃ root, d.root requested = .ok root ∧ d.RootIs requested root := by
  cases hroot : d.root requested with
  | ok root => exact ⟨root, rfl, (d.root_outcome requested).of_ok hroot⟩
  | error e =>
    obtain ⟨name, hname, _, hmissing⟩ := (d.root_outcome requested).of_error hroot
    exact absurd (h name hname) hmissing

theorem RootIs.of_singleton {name : String} {v : Vertex} (h : d.RootIs [name] v) :
    v ∈ d.vertices ∧ v.name = name := by
  cases h with
  | target hv => exact ⟨hv, rfl⟩
  | aggregate hlength => exact absurd hlength (by simp)

theorem document_eq (root : Vertex) (values : VarValues) (frontend : String) :
    d.document root values frontend =
      { frontend, stages := (d.emitted root).flatMap (d.stagesOf values) } :=
  congrArg (Dockerfile.Document.mk frontend) (document_stages_eq values frontend)

variable (hd : d.WellFormed)

include hd

/-- A request for one target has that target as its root. -/
theorem root_singleton_name {v : Vertex} (hv : v ∈ d.vertices) : d.root [v.name] = .ok v := by
  have hdeclared : ∀ name ∈ asked [v.name], name ∈ d.vertices.map (·.name) := fun name hname =>
    List.mem_singleton.1 hname ▸ List.mem_map_of_mem hv
  obtain ⟨u, hroot, hu⟩ := exists_root hdeclared
  obtain rfl := hd.eq_of_name_eq hu.of_singleton.1 hv hu.of_singleton.2
  exact hroot

/-- The targets at the places of an aggregate are the roots of single requests. -/
theorem forall₂_root_verticesAt
    (h : List.Forall₂ (fun name place => d.Names place name) requested places) :
    List.Forall₂ (fun name v => v.name = name ∧ d.root [name] = .ok v) requested
      (d.verticesAt places) := by
  induction h with
  | nil => exact .nil
  | cons hnames _ ih =>
    obtain ⟨v, hv, rfl⟩ := hnames
    rw [verticesAt, List.filterMap_cons_some hv]
    exact .cons ⟨rfl, root_singleton_name hd (List.mem_of_getElem? hv)⟩ ih

/-- The plan of an aggregate is the plans of its targets, without the steps of
    what has been built before. -/
theorem plan_aggregate (name : String) (places : List Nat) :
    d.plan (.aggregate name places) =
      ((d.verticesAt places).flatMap d.plan).eraseDupsBy (·.name == ·.name) := by
  have hplanned : d.planned (.aggregate name places) =
      ((d.verticesAt places).flatMap d.planned).eraseDups :=
    staged_eq_eraseDups hd (fun _ _ hu => (mem_required.1 hu).leads) rfl
  have hmem : ∀ v ∈ (d.verticesAt places).flatMap d.planned, v.stage.isSome ∧ v ∈ d.vertices := by
    intro v hv
    obtain ⟨u, hu, hv⟩ := List.mem_flatMap.1 hv
    obtain ⟨_, _, hplace⟩ := mem_verticesAt.1 hu
    obtain ⟨hs, hreach⟩ := (mem_planned_iff hd).1 hv
    have hroot : d.IsRoot u := .target (List.mem_of_getElem? hplace)
    exact ⟨hs, hroot.mem_of_reaches (ReflTransGen.mono (fun _ _ => Requires.leads) _ _ hreach) hs⟩
  have hplans : (d.verticesAt places).flatMap d.plan =
      ((d.verticesAt places).flatMap d.planned).filterMap Vertex.step? := by
    rw [List.filterMap_flatMap]
    exact List.flatMap_congr fun v _ => plan_eq hd v
  rw [plan_eq hd, hplanned, hplans]
  exact Vertex.filterMap_step?_eraseDups (fun v hv => (hmem v hv).1) fun v hv u hu =>
    hd.eq_of_name_eq (hmem v hv).2 (hmem u hu).2

/-- The document of an aggregate has the blocks of its targets' documents,
    without those of targets that have one before. -/
theorem emitted_aggregate (name : String) (places : List Nat) :
    d.emitted (.aggregate name places) = ((d.verticesAt places).flatMap d.emitted).eraseDups :=
  staged_eq_eraseDups hd (fun _ _ => mem_referenced.1) rfl

end Definition

open Definition

/-- A request for several declared targets, which may be repeated and may share
    what they lead to, is one for an aggregate of the targets that the names
    stand for by themselves. Its plan is theirs, one after the other, without the
    steps of targets that have one before, and its document has the blocks of
    theirs, one after the other, without those of targets that have one before. -/
theorem several_targets_shared {file : BuildFile} {secrets : List SecretSource} {d : Definition}
    (h : file.resolve secrets = .ok d) {requested : List String} (hlength : 2 ≤ requested.length)
    (hdeclared : ∀ name ∈ requested, name ∈ d.vertices.map (·.name)) :
    ∃ places targets, d.root requested = .ok (.aggregate defaultTarget places) ∧
      List.Forall₂ (fun name v => v.name = name ∧ d.root [name] = .ok v) requested targets ∧
      d.plan (.aggregate defaultTarget places) =
        (targets.flatMap d.plan).eraseDupsBy (·.name == ·.name) ∧
      ∀ values frontend,
        d.document (.aggregate defaultTarget places) values frontend =
          { frontend
            stages := (targets.flatMap d.emitted).eraseDups.flatMap (d.stagesOf values) } ∧
        ∀ v ∈ targets,
          d.document v values frontend =
            { frontend, stages := (d.emitted v).flatMap (d.stagesOf values) } ∧
          ∀ u ∈ d.emitted v, u ∈ d.vertices ∧ Block u (d.stagesOf values u) := by
  have hd := BuildFile.wellFormed_of_resolve h
  obtain ⟨root, hroot, his⟩ := exists_root ((asked_of_two_le hlength).symm ▸ hdeclared)
  cases his with
  | default => exact absurd hlength (by simp)
  | target => exact absurd hlength (by simp)
  | @aggregate _ places _ hplaces =>
    refine ⟨places, d.verticesAt places, hroot, forall₂_root_verticesAt hd hplaces,
      plan_aggregate hd _ _, fun values frontend => ⟨?_, fun v hv => ⟨?_, fun u hu => ?_⟩⟩⟩
    · rw [document_eq, emitted_aggregate hd]
    · exact document_eq v values frontend
    · obtain ⟨_, _, hplace⟩ := mem_verticesAt.1 hv
      exact ⟨mem_of_mem_emitted hd (.target (List.mem_of_getElem? hplace)) hu,
        block_stagesOf values ((mem_emitted_iff hd).1 hu).1⟩

/-- A request that repeats a target, and asks for an aggregate and for what it
    stands for. -/
theorem several_targets_shared_pipeline :
    ∃ d, pipeline.resolve [] = .ok d ∧
      (∀ name ∈ ["docs", "release", "gen", "docs"], name ∈ d.vertices.map (·.name)) ∧
      ∃ places, ∃ targets : List Vertex,
        d.root ["docs", "release", "gen", "docs"] = .ok (.aggregate defaultTarget places) ∧
        (d.plan (.aggregate defaultTarget places)).map (·.stage) =
          ["gen", "base", "docs-out", "app"] ∧
        d.plan (.aggregate defaultTarget places) =
          (targets.flatMap d.plan).eraseDupsBy (·.name == ·.name) := by
  let d := Resolution.resolved pipeline []
  have h : pipeline.resolve [] = .ok d := by rfl
  have hdeclared : ∀ name ∈ ["docs", "release", "gen", "docs"], name ∈ d.vertices.map (·.name) := by
    decide
  obtain ⟨places, targets, hroot, _, hplan, _⟩ := several_targets_shared h (by decide) hdeclared
  have hrequest : d.root ["docs", "release", "gen", "docs"] =
      .ok (.aggregate defaultTarget [3, 1, 6, 3]) := by rfl
  have hplaces : Vertex.aggregate defaultTarget places = .aggregate defaultTarget [3, 1, 6, 3] :=
    Except.ok.inj (hroot.symm.trans hrequest)
  refine ⟨d, h, hdeclared, places, targets, hroot, ?_, hplan⟩
  rw [hplaces]
  decide

end ContainerBuild
