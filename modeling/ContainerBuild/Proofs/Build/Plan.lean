import ContainerBuild.Build.Plan
import ContainerBuild.Proofs.Build.Roots
import ContainerBuild.Proofs.Definition.Walk

/-!
# What a plan builds

A target *requires* those it depends on, and the one its stage starts from if
that has an output or dependencies (`Definition.Requires`). The plan of a root
has one step for each target with a stage that the root requires, directly or
not, and the step comes after the steps of what the target requires itself
(`plan_ordered`). A request always has something to build, because a target
without a stage depends on others and there is no end to that but a stage.

Whether a target is required is a matter of one base at a time. So a base with
neither output nor dependencies hides what *it* starts from: if that has an
output or dependencies, they are built before the stage only if something else
asks for them (`plan_prepared_iff`).

The steps are those of the targets that a walk by what is required lists
(`plan_eq`), although the planner remembers only what has a step.
-/

namespace ContainerBuild

open Relation

/-- A step builds a target: the target's own stage, or that of its output, which
    is written to a directory. -/
inductive Builds : BuildStep → Vertex → Prop
  | own {v : Vertex} : v.stage.isSome → v.output = none → Builds ⟨v.name, v.name, none⟩ v
  | exported {v : Vertex} {o : Output} :
    v.output = some o → Builds ⟨v.name, v.name ++ "-out", some o.directory⟩ v

namespace Vertex

variable {v : Vertex}

theorem builtAlone_iff : v.builtAlone = true ↔ v.output.isSome ∨ v.dependsOn ≠ [] := by
  simp [builtAlone]

theorem step?_eq_none (hs : v.stage = none) : v.step? = none := by
  rw [step?, hs, Option.map_none]

theorem exists_step (hs : v.stage.isSome) : ∃ step, v.step? = some step ∧ Builds step v := by
  obtain ⟨stage, hs⟩ := Option.isSome_iff_exists.1 hs
  have houtput : v.output = stage.output := by rw [output, hs, Option.bind_some]
  refine ⟨_, by rw [step?, hs, Option.map_some], ?_⟩
  cases ho : stage.output with
  | none => exact .own (by rw [hs]; rfl) (houtput.trans ho)
  | some o => exact .exported (houtput.trans ho)

/-- Targets with a stage have one step each. -/
theorem builds_filterMap_step? {l : List Vertex} (hl : ∀ v ∈ l, v.stage.isSome) :
    List.Forall₂ Builds (l.filterMap step?) l := by
  induction l with
  | nil => exact .nil
  | cons v l ih =>
    obtain ⟨step, hstep, hbuilds⟩ := exists_step (hl v List.mem_cons_self)
    rw [List.filterMap_cons_some hstep]
    exact .cons hbuilds (ih fun u hu => hl u (List.mem_cons_of_mem _ hu))

theorem filterMap_step?_filter (l : List Vertex) :
    (l.filter (·.stage.isSome)).filterMap step? = l.filterMap step? := by
  rw [List.filterMap_filter]
  refine List.filterMap_congr fun v _ => ?_
  cases hs : v.stage with
  | none => rw [step?_eq_none hs]; rfl
  | some _ => rfl

theorem name_of_step? {step : BuildStep} (h : v.step? = some step) : step.name = v.name := by
  have hs : v.stage.isSome := Option.isSome_iff_ne_none.2 fun hnone => by
    rw [step?_eq_none hnone] at h
    cases h
  obtain ⟨step', hstep, hbuilds⟩ := exists_step hs
  obtain rfl := Option.some.inj (h.symm.trans hstep)
  cases hbuilds with
  | own => rfl
  | exported => rfl

/-- Some targets have a step of a name if one of them has both. -/
theorem exists_of_any_step? {l : List Vertex} {name : String}
    (h : (l.filterMap step?).any (·.name == name)) : ∃ v ∈ l, v.name = name := by
  obtain ⟨step, hstep, hname⟩ := List.any_eq_true.1 h
  obtain ⟨v, hv, hstep⟩ := List.mem_filterMap.1 hstep
  exact ⟨v, hv, (name_of_step? hstep).symm.trans (beq_iff_eq.1 hname)⟩

theorem step?_eq_none_of_not_any {l : List Vertex} (hv : v ∈ l)
    (h : ¬(l.filterMap step?).any (·.name == v.name)) : v.step? = none := by
  cases hstep : v.step? with
  | none => rfl
  | some step =>
    have hmem : step ∈ l.filterMap step? := List.mem_filterMap.2 ⟨v, hv, hstep⟩
    exact absurd (List.any_eq_true.2 ⟨step, hmem, by rw [name_of_step? hstep, beq_self_eq_true]⟩) h

end Vertex

namespace Definition

variable (d : Definition)

/-- The target `u` is built before `v`. -/
inductive Requires : Vertex → Vertex → Prop
  | base {v u : Vertex} :
    d.Links .base v u → u.output.isSome ∨ u.dependsOn ≠ [] → Requires v u
  | dependsOn {v u : Vertex} : d.Links .dependsOn v u → Requires v u

/-- The targets with a step in the plan of a root, in the order of the steps. -/
def planned (root : Vertex) : List Vertex :=
  d.staged d.required root

variable {d} {root v u : Vertex}

theorem Requires.leads (h : d.Requires v u) : d.Leads v u := by
  cases h with
  | base hl => exact ⟨_, hl⟩
  | dependsOn hl => exact ⟨_, hl⟩

theorem mem_verticesAt {places : List Nat} :
    u ∈ d.verticesAt places ↔ ∃ place ∈ places, d.vertices[place]? = some u :=
  List.mem_filterMap

theorem mem_required : u ∈ d.required v ↔ d.Requires v u := by
  simp only [required, List.mem_append, List.mem_filter, mem_verticesAt, Option.mem_toList,
    Vertex.builtAlone_iff]
  constructor
  · rintro (⟨⟨place, hp, hu⟩, halone⟩ | ⟨place, hp, hu⟩)
    · exact .base (.base hp hu) halone
    · exact .dependsOn (.dependsOn hp hu)
  · intro h
    cases h with
    | base hl halone =>
      cases hl with
      | base hp hu => exact .inl ⟨⟨_, hp, hu⟩, halone⟩
    | dependsOn hl =>
      cases hl with
      | dependsOn hp hu => exact .inr ⟨_, hp, hu⟩

/-! ### The planner

The planner remembers the steps only, so it comes back to a target without a
stage whenever something requires it. A walk that lists such targets too passes
them by, and adds the same steps: whatever a listed target requires is listed,
so there is nothing to add. -/

section Planner

variable (hd : d.WellFormed) {budget : Nat} {listed : List Vertex}

/-- The planner adds nothing for a target that is listed. -/
theorem planFrom_of_mem (h : Listed d d.required listed) (hv : v ∈ listed) :
    d.planFrom budget (listed.filterMap Vertex.step?) v = listed.filterMap Vertex.step? := by
  induction budget generalizing v with
  | zero => rfl
  | succ budget ih =>
    rw [planFrom]
    split_ifs with hstep
    · rfl
    · rw [Vertex.step?_eq_none_of_not_any hv hstep, Option.toList_none, List.append_nil]
      refine List.foldlRecOn (motive := (· = listed.filterMap Vertex.step?)) _ _ rfl ?_
      rintro _ rfl u hu
      exact ih (h.ordered.mem_of_next hv hu)

/-- A target that is not listed comes after what it requires, and its step after
    the steps of that. -/
theorem planFrom_succ (hname : ¬listed.any (·.name == v.name))
    (hfold : (d.required v).foldl (d.planFrom budget) (listed.filterMap Vertex.step?) =
      ((d.required v).foldl (postorderFrom d.required budget) listed).filterMap Vertex.step?) :
    d.planFrom (budget + 1) (listed.filterMap Vertex.step?) v =
      (postorderFrom d.required (budget + 1) listed v).filterMap Vertex.step? := by
  have hstep : ¬(listed.filterMap Vertex.step?).any (·.name == v.name) := fun hstep => by
    obtain ⟨u, hu, hname'⟩ := Vertex.exists_of_any_step? hstep
    exact hname (List.any_eq_true.2 ⟨u, hu, beq_iff_eq.2 hname'⟩)
  have hlast : [v].filterMap Vertex.step? = v.step?.toList := by
    cases hs : v.step? <;> simp [hs]
  rw [planFrom, if_neg hstep, postorderFrom, if_neg hname, hfold, List.filterMap_append, hlast]

variable {rank : Vertex → Nat} (hrank : ∀ v ∈ d.vertices, ∀ u, d.Leads v u → rank u < rank v)

include hd hrank in
/-- One target after the other. -/
theorem foldl_planFrom {us : List Vertex} (hmem : ∀ u ∈ us, u ∈ d.vertices)
    (hbudget : ∀ u ∈ us, rank u < budget)
    (hplan : ∀ u ∈ us, ∀ l, Listed d d.required l →
      d.planFrom budget (l.filterMap Vertex.step?) u =
        (postorderFrom d.required budget l u).filterMap Vertex.step?)
    (h : Listed d d.required listed) :
    us.foldl (d.planFrom budget) (listed.filterMap Vertex.step?) =
      (us.foldl (postorderFrom d.required budget) listed).filterMap Vertex.step? := by
  induction us generalizing listed with
  | nil => rfl
  | cons u us ih =>
    have hlisted := extended_postorderFrom hd (fun _ _ hu => (mem_required.1 hu).leads) hrank
      (hmem u List.mem_cons_self) (hbudget u List.mem_cons_self) h
    rw [List.foldl_cons, List.foldl_cons, hplan u List.mem_cons_self listed h]
    exact ih (fun u' hu' => hmem u' (List.mem_cons_of_mem _ hu'))
      (fun u' hu' => hbudget u' (List.mem_cons_of_mem _ hu'))
      (fun u' hu' => hplan u' (List.mem_cons_of_mem _ hu')) hlisted.known

include hd hrank in
/-- The planner adds the steps of the targets that a walk adds. -/
theorem planFrom_eq (hv : v ∈ d.vertices) (hbudget : rank v < budget)
    (h : Listed d d.required listed) :
    d.planFrom budget (listed.filterMap Vertex.step?) v =
      (postorderFrom d.required budget listed v).filterMap Vertex.step? := by
  induction budget generalizing v listed with
  | zero => exact absurd hbudget (Nat.not_lt_zero _)
  | succ budget ih =>
    by_cases hname : listed.any (·.name == v.name)
    · rw [planFrom_of_mem h (h.mem_of_any hd hv hname), postorderFrom, if_pos hname]
    · have hmem : ∀ u ∈ d.required v, u ∈ d.vertices := fun u hu => (mem_required.1 hu).leads.mem
      have hlower : ∀ u ∈ d.required v, rank u < budget := fun _ hu =>
        rank_lt_of_leads hrank hv hbudget (mem_required.1 hu).leads
      refine planFrom_succ hname ?_
      exact foldl_planFrom hd hrank hmem hlower (fun u hu _ => ih (hmem u hu) (hlower u hu)) h

end Planner

/-- The plan of a root has the steps of the targets that a walk lists. -/
theorem plan_eq (hd : d.WellFormed) (root : Vertex) :
    d.plan root = (d.planned root).filterMap Vertex.step? := by
  obtain ⟨rank, hlt, hrank⟩ := hd.ranked
  have hmem : ∀ u ∈ d.required root, u ∈ d.vertices := fun u hu => (mem_required.1 hu).leads.mem
  have hlower : ∀ u ∈ d.required root, rank u < d.vertices.length := fun u hu => hlt u (hmem u hu)
  have hnil : Listed d d.required [] := ⟨.nil, fun _ hv => absurd hv List.not_mem_nil⟩
  rw [planned, staged, Vertex.filterMap_step?_filter]
  -- Nothing is listed at first, so the root is walked whatever its name is.
  have hname : ¬([] : List Vertex).any (·.name == root.name) := Bool.false_ne_true
  refine planFrom_succ hname ?_
  exact foldl_planFrom hd hrank hmem hlower
    (fun u hu _ => planFrom_eq hd hrank (hmem u hu) (hlower u hu)) hnil

section Planned

variable (hd : d.WellFormed)

include hd in
theorem mem_planned_iff :
    v ∈ d.planned root ↔ v.stage.isSome ∧ ReflTransGen d.Requires root v :=
  mem_staged_iff hd (fun _ _ => mem_required) fun _ _ => Requires.leads

include hd in
theorem planned_ordered (root : Vertex) :
    Ordered (fun v u => u.stage.isSome = true ∧ TransGen d.Requires v u) (d.planned root) :=
  staged_ordered hd (fun _ _ => mem_required) (fun _ _ => Requires.leads) root

include hd in
theorem planned_names_nodup (hroot : d.IsRoot root) : ((d.planned root).map (·.name)).Nodup :=
  staged_names_nodup hd (fun _ _ => mem_required) (fun _ _ => Requires.leads) hroot

include hd in
/-- The steps of a plan build the planned targets. -/
theorem builds_plan (root : Vertex) : List.Forall₂ Builds (d.plan root) (d.planned root) := by
  rw [plan_eq hd]
  exact Vertex.builds_filterMap_step? fun v hv => ((mem_planned_iff hd).1 hv).1

end Planned

/-! ### A plan is not empty -/

/-- A target that is requested has a stage or depends on something. -/
theorem RootIs.exists_dependency {requested : List String} (h : d.RootIs requested root)
    (hempty : ∀ v ∈ d.vertices, v.stage = none → ∃ u, d.Links .dependsOn v u)
    (hs : root.stage = none) : ∃ u, d.Links .dependsOn root u := by
  cases h with
  | default hv => exact hempty _ hv hs
  | target hv => exact hempty _ hv hs
  | aggregate hlength hplaces =>
    cases hplaces with
    | nil => exact absurd hlength (by simp)
    | cons hnames =>
      obtain ⟨u, hu, _⟩ := hnames
      exact ⟨u, .dependsOn List.mem_cons_self hu⟩

/-- From a target without a stage one comes to a target with a stage, along
    dependencies: they lead to ever lower ranks. -/
theorem exists_stage_of_mem (hd : d.WellFormed)
    (hempty : ∀ v ∈ d.vertices, v.stage = none → ∃ u, d.Links .dependsOn v u)
    (hv : v ∈ d.vertices) : ∃ u, u.stage.isSome ∧ ReflTransGen d.Requires v u := by
  obtain ⟨rank, _, hrank⟩ := hd.ranked
  induction hn : rank v using Nat.strongRecOn generalizing v with
  | ind n ih =>
    cases hs : v.stage with
    | some _ => exact ⟨v, by rw [hs]; rfl, .refl⟩
    | none =>
      obtain ⟨w, hw⟩ := hempty v hv hs
      obtain ⟨u, hu, hreach⟩ := ih (rank w) (hn ▸ hrank v hv w ⟨_, hw⟩) hw.mem rfl
      exact ⟨u, hu, .head (.dependsOn hw) hreach⟩

theorem plan_ne_nil {file : BuildFile} {secrets : List SecretSource}
    (h : file.resolve secrets = .ok d) {requested : List String} (hroot : d.RootIs requested root) :
    d.plan root ≠ [] := by
  have hd := BuildFile.wellFormed_of_resolve h
  have hempty : ∀ v ∈ d.vertices, v.stage = none → ∃ u, d.Links .dependsOn v u := by
    obtain ⟨rfl, hr, _⟩ := (Resolution.resolve_outcome file secrets).of_ok h
    exact fun v hv => (Resolution.representedBy_resolved hr).exists_dependency hr hv
  have hstage : ∃ u, u.stage.isSome ∧ ReflTransGen d.Requires root u := by
    cases hs : root.stage with
    | some _ => exact ⟨root, by rw [hs]; rfl, .refl⟩
    | none =>
      obtain ⟨w, hw⟩ := hroot.exists_dependency hempty hs
      obtain ⟨u, hu, hreach⟩ := exists_stage_of_mem hd hempty hw.mem
      exact ⟨u, hu, .head (.dependsOn hw) hreach⟩
  obtain ⟨u, hu⟩ := hstage
  have hplanned : u ∈ d.planned root := (mem_planned_iff hd).2 hu
  intro hnil
  have hlength := (builds_plan hd root).length_eq
  rw [hnil, List.length_nil] at hlength
  exact absurd hplanned (List.eq_nil_of_length_eq_zero hlength.symm ▸ List.not_mem_nil)

end Definition

open Definition

/-- The plan of a requested root has a step for exactly the targets with a stage
    that the root requires, each once, and each after all that it requires
    itself. There is at least one. -/
theorem plan_ordered {file : BuildFile} {secrets : List SecretSource} {d : Definition}
    (h : file.resolve secrets = .ok d) {requested : List String} {root : Vertex}
    (hroot : d.root requested = .ok root) :
    ∃ order : List Vertex,
      List.Forall₂ Builds (d.plan root) order ∧
      (∀ v, v ∈ order ↔ v.stage.isSome ∧ ReflTransGen d.Requires root v) ∧
      (order.map (·.name)).Nodup ∧
      (∀ v ∈ order, ∀ u, u.stage.isSome → TransGen d.Requires v u → [u, v].Sublist order) ∧
      d.plan root ≠ [] := by
  have hd := BuildFile.wellFormed_of_resolve h
  have hroot := (d.root_outcome requested).of_ok hroot
  refine ⟨d.planned root, builds_plan hd root, fun v => mem_planned_iff hd,
    planned_names_nodup hd hroot.isRoot, fun v hv u hu hvu => ?_, plan_ne_nil h hroot⟩
  exact (planned_ordered hd root).pair_sublist hv (.single ⟨hu, hvu⟩)

/-- Aggregates of aggregates, and a base that needs something itself. -/
def pipeline : BuildFile where
  apiVersion := BuildFile.supportedVersion
  targets := [
    ("all", .aggregate ["release"]),
    ("release", .aggregate ["app", "docs"]),
    ("app", .target { base := some "base", dependsOn := ["gen"], command := some "make" }),
    ("docs", .target { base := some "base", output := some ⟨"/site", "site"⟩ }),
    ("base", .target { base := some "root", dependsOn := ["gen"] }),
    ("root", .target { base := some "alpine" }),
    ("gen", .target { base := some "alpine", command := some "gen" })]

theorem plan_ordered_pipeline :
    ∃ d root, pipeline.resolve [] = .ok d ∧ d.root [] = .ok root ∧ root.stage = none ∧
      (d.plan root).map (·.stage) = ["gen", "base", "app", "docs-out"] ∧
      ∃ order : List Vertex,
        List.Forall₂ Builds (d.plan root) order ∧
        (∀ v, v ∈ order ↔ v.stage.isSome ∧ ReflTransGen d.Requires root v) ∧
        (order.map (·.name)).Nodup ∧ d.plan root ≠ [] := by
  let d := Resolution.resolved pipeline []
  have h : pipeline.resolve [] = .ok d := by rfl
  have hroot : d.root [] = .ok d.vertices[0] := by rfl
  obtain ⟨order, hbuilds, hmem, hnodup, _, hne⟩ := plan_ordered h hroot
  exact ⟨d, _, h, hroot, rfl, by decide, order, hbuilds, hmem, hnodup, hne⟩

/-! ### Bases of bases -/

/-- What the stage of `v` starts from, through any number of bases, is ready
    when `v` is built: its output has been written, and what it depends on has
    been built, and so has it itself if it depends on something. -/
structure Definition.Prepared (d : Definition) (root v a : Vertex) : Prop where
  output : a.output.isSome → [a, v].Sublist (d.planned root)
  dependencies : ∀ u, d.Links .dependsOn a u → u.stage.isSome → [u, v].Sublist (d.planned root)
  own : a.dependsOn ≠ [] → a.stage.isSome → [a, v].Sublist (d.planned root)

namespace Definition

variable {d : Definition} {root v a : Vertex} (hd : d.WellFormed)

theorem prepared_of_plain (ho : a.output = none) (hdeps : a.dependsOn = []) :
    d.Prepared root v a := by
  refine ⟨fun h => ?_, fun u hl _ => ?_, fun h => absurd hdeps h⟩
  · rw [ho] at h
    exact absurd h Bool.false_ne_true
  · cases hl with
    | dependsOn hp =>
      rw [hdeps] at hp
      exact absurd hp List.not_mem_nil

include hd in
/-- What a planned target requires is ready. -/
theorem prepared_of_requires (hv : v ∈ d.planned root) (h : TransGen d.Requires v a) :
    d.Prepared root v a := by
  have hbefore : ∀ u, u.stage.isSome → TransGen d.Requires v u → [u, v].Sublist (d.planned root) :=
    fun u hs hu => (planned_ordered hd root).pair_sublist hv (.single ⟨hs, hu⟩)
  exact ⟨fun ho => hbefore a (Option.isSome_of_isSome_bind ho) h,
    fun u hl hs => hbefore u hs (.tail h (.dependsOn hl)), fun _ hs => hbefore a hs h⟩

include hd in
/-- What is ready for a target is ready for all that is built after it. -/
theorem Prepared.trans {p : Vertex} (h : d.Prepared root p a)
    (hp : [p, v].Sublist (d.planned root)) : d.Prepared root v a := by
  have hnodup := (planned_ordered hd root).nodup
  exact ⟨fun ho => pair_sublist_trans hnodup (h.output ho) hp,
    fun u hl hs => pair_sublist_trans hnodup (h.dependencies u hl hs) hp,
    fun hdeps hs => pair_sublist_trans hnodup (h.own hdeps hs) hp⟩

include hd in
/-- All bases of all planned targets are ready if those are that are hidden
    behind the direct base of a planned target. -/
theorem prepared_of_hidden (hstage : ∀ v ∈ d.vertices, ∀ u, d.Links .base v u → v.stage.isSome)
    (hhidden : ∀ v ∈ d.planned root, ∀ p, d.Links .base v p → p.output = none →
      p.dependsOn = [] → ∀ a, TransGen (d.Links .base) p a → d.Prepared root v a)
    (hv : v ∈ d.planned root) (h : TransGen (d.Links .base) v a) : d.Prepared root v a := by
  induction h using TransGen.head_induction_on with
  | single hl =>
    by_cases halone : a.output.isSome ∨ a.dependsOn ≠ []
    · exact prepared_of_requires hd hv (.single (.base hl halone))
    · rw [not_or, not_not, Option.not_isSome_iff_eq_none] at halone
      exact prepared_of_plain halone.1 halone.2
  | @head v p hl hpa ih =>
    by_cases halone : p.output.isSome ∨ p.dependsOn ≠ []
    · -- The direct base is built before the target, and its own bases are
      -- ready when it is built.
      have hrequires : d.Requires v p := .base hl halone
      obtain ⟨q, hpq, _⟩ := TransGen.head'_iff.1 hpa
      have hs := hstage p hl.mem q hpq
      have hreach := ((mem_planned_iff hd).1 hv).2.tail hrequires
      refine (ih ((mem_planned_iff hd).2 ⟨hs, hreach⟩)).trans hd ?_
      exact (planned_ordered hd root).pair_sublist hv (.single ⟨hs, .single hrequires⟩)
    · rw [not_or, not_not, Option.not_isSome_iff_eq_none] at halone
      exact hhidden v hv p hl halone.1 halone.2 a hpa

end Definition

/-- The steps of a plan build the planned targets, which are those with a stage
    that the root requires. What a planned target starts from is ready as long
    as every base on the way has an output or dependencies. All that the planned
    targets start from is ready exactly if this is so behind direct bases that
    have neither. -/
theorem plan_prepared_iff {file : BuildFile} {secrets : List SecretSource} {d : Definition}
    (h : file.resolve secrets = .ok d) {root : Vertex} (hroot : d.IsRoot root) :
    (List.Forall₂ Builds (d.plan root) (d.planned root) ∧
      ((d.planned root).map (·.name)).Nodup ∧
      ∀ v, v ∈ d.planned root ↔ v.stage.isSome ∧ ReflTransGen d.Requires root v) ∧
    (∀ v ∈ d.planned root, ∀ a,
      TransGen (fun v u => d.Links .base v u ∧ (u.output.isSome ∨ u.dependsOn ≠ [])) v a →
        d.Prepared root v a) ∧
    ((∀ v ∈ d.planned root, ∀ a, TransGen (d.Links .base) v a → d.Prepared root v a) ↔
      ∀ v ∈ d.planned root, ∀ p, d.Links .base v p → p.output = none → p.dependsOn = [] →
        ∀ a, TransGen (d.Links .base) p a → d.Prepared root v a) := by
  have hd := BuildFile.wellFormed_of_resolve h
  refine ⟨⟨builds_plan hd root, planned_names_nodup hd hroot, fun v => mem_planned_iff hd⟩,
    fun v hv a hva => ?_, ?_⟩
  · exact prepared_of_requires hd hv (TransGen.mono (fun _ _ hl => .base hl.1 hl.2) _ _ hva)
  · refine ⟨fun hall v hv p hl _ _ a hpa => hall v hv a (.head hl hpa),
      fun hhidden v hv a hva => ?_⟩
    have hstage : ∀ v ∈ d.vertices, ∀ u, d.Links .base v u → v.stage.isSome := by
      obtain ⟨rfl, hr, _⟩ := (Resolution.resolve_outcome file secrets).of_ok h
      exact fun v hv u hl => (Resolution.representedBy_resolved hr).stage_of_links_base hv hl
    exact prepared_of_hidden hd hstage hhidden hv hva

theorem plan_prepared_pipeline :
    ∃ d root v a, pipeline.resolve [] = .ok d ∧ d.root [] = .ok root ∧ d.IsRoot root ∧
      v ∈ d.planned root ∧ TransGen (d.Links .base) v a ∧ a.dependsOn ≠ [] ∧
      ∀ v ∈ d.planned root, ∀ a, TransGen (d.Links .base) v a → d.Prepared root v a := by
  let d := Resolution.resolved pipeline []
  have h : pipeline.resolve [] = .ok d := by rfl
  have hroot : d.IsRoot d.vertices[0] := .target (List.getElem_mem _)
  have hplain : ∀ p ∈ d.vertices, p.output = none → p.dependsOn = [] → p.parent = none := by decide
  refine ⟨d, d.vertices[0], d.vertices[2], d.vertices[4], h, by rfl, hroot, by decide,
    .single (.base rfl rfl), by decide, ?_⟩
  refine (plan_prepared_iff h hroot).2.2.2 fun v _ p hl ho hdeps a hpa => ?_
  -- A base that has neither output nor dependencies starts from an image here.
  obtain ⟨q, hpq, _⟩ := TransGen.head'_iff.1 hpa
  cases hpq with
  | base hp => exact absurd (hplain p hl.mem ho hdeps) (by rw [hp]; exact Option.some_ne_none _)

/-- A base behind a base. -/
def hiddenBase : BuildFile where
  apiVersion := BuildFile.supportedVersion
  targets := [
    ("gen", .target { base := some "alpine", command := some "gen" }),
    ("lib", .target {
      base := some "alpine", dependsOn := ["gen"], output := some ⟨"/lib", "out"⟩ }),
    ("base", .target { base := some "lib" }),
    ("app", .target { base := some "base" })]

theorem not_prepared_hiddenBase :
    ∃ d root, hiddenBase.resolve [] = .ok d ∧ d.root ["app"] = .ok root ∧ d.IsRoot root ∧
      ¬∀ v ∈ d.planned root, ∀ a, TransGen (d.Links .base) v a → d.Prepared root v a := by
  let d := Resolution.resolved hiddenBase []
  refine ⟨d, d.vertices[3], by rfl, by rfl, .target (List.getElem_mem _), fun hall => ?_⟩
  have hbase : d.Links .base d.vertices[3] d.vertices[2] := .base rfl rfl
  have hlib : d.Links .base d.vertices[2] d.vertices[1] := .base rfl rfl
  have hprepared := hall d.vertices[3] (by decide) d.vertices[1] (.tail (.single hbase) hlib)
  have hplanned : d.planned d.vertices[3] = [d.vertices[3]] := by rfl
  have hbefore := hprepared.output rfl
  rw [hplanned] at hbefore
  exact absurd hbefore.length_le (by decide)

end ContainerBuild
