import ContainerBuild.Definition.Walk
import ContainerBuild.Proofs.Resolution.Represented

/-!
# The graph of a definition

`Links` says which targets of a definition a target refers to, by its base, a
copy or a dependency. A definition that a build file was resolved to is *well
formed* (`wellFormed_of_resolve`): targets are told apart by their names, a
stage calls the target it starts from by its name, and targets can be ranked
such that everything leads to something of a lower rank, so there are no cycles
(`WellFormed.irrefl`).
-/

namespace ContainerBuild

open Relation

namespace Definition

variable (d : Definition)

/-- The target `v` refers to `u` by an edge of the kind. -/
inductive Links : Edge → Vertex → Vertex → Prop
  | base {v u : Vertex} {place : Nat} :
    v.parent = some place → d.vertices[place]? = some u → Links .base v u
  | copy {v u : Vertex} {stage : Stage} {c : Copy} {place : Nat} :
    v.stage = some stage → c ∈ stage.copies → c.source = some (.vertex place) →
    d.vertices[place]? = some u → Links .copy v u
  | dependsOn {v u : Vertex} {place : Nat} :
    place ∈ v.dependsOn → d.vertices[place]? = some u → Links .dependsOn v u

/-- The target `v` refers to `u`. -/
def Leads (v u : Vertex) : Prop :=
  ∃ edge, d.Links edge v u

/-- What can be built: a target of the definition, or an aggregate of some. -/
inductive IsRoot : Vertex → Prop
  | target {v : Vertex} : v ∈ d.vertices → IsRoot v
  | aggregate {name : String} {places : List Nat} :
    (∀ place ∈ places, place < d.vertices.length) → IsRoot (.aggregate name places)

/-- What resolution guarantees of a definition. -/
structure WellFormed : Prop where
  nodup : (d.vertices.map (·.name)).Nodup
  base_eq : ∀ v ∈ d.vertices, ∀ stage, v.stage = some stage →
    ∀ u, d.Links .base v u → stage.base = u.name
  ranked : ∃ rank : Vertex → Nat, (∀ v ∈ d.vertices, rank v < d.vertices.length) ∧
    ∀ v ∈ d.vertices, ∀ u, d.Leads v u → rank u < rank v

variable {d} {v u : Vertex}

theorem Links.mem {edge : Edge} (h : d.Links edge v u) : u ∈ d.vertices := by
  cases h with
  | base _ hu => exact List.mem_of_getElem? hu
  | copy _ _ _ hu => exact List.mem_of_getElem? hu
  | dependsOn _ hu => exact List.mem_of_getElem? hu

theorem Leads.mem (h : d.Leads v u) : u ∈ d.vertices :=
  h.elim fun _ hl => hl.mem

theorem mem_of_transGen (h : TransGen d.Leads v u) : u ∈ d.vertices := by
  cases h with
  | single hvu => exact hvu.mem
  | tail _ hbu => exact hbu.mem

/-- A root with a stage is a target of the definition: an aggregate has none. -/
theorem IsRoot.mem_of_stage {root : Vertex} (hroot : d.IsRoot root) (hs : root.stage.isSome) :
    root ∈ d.vertices := by
  cases hroot with
  | target hv => exact hv
  | aggregate => exact absurd hs Bool.false_ne_true

theorem IsRoot.mem_of_reaches {root : Vertex} (hroot : d.IsRoot root)
    (h : ReflTransGen d.Leads root v) (hv : v.stage.isSome) : v ∈ d.vertices := by
  rcases reflTransGen_iff_eq_or_transGen.1 h with rfl | h
  · exact hroot.mem_of_stage hv
  · exact mem_of_transGen h

theorem mem_copyPlaces {place : Nat} :
    place ∈ v.copyPlaces ↔
      ∃ stage, v.stage = some stage ∧ ∃ c ∈ stage.copies, c.source = some (.vertex place) := by
  unfold Vertex.copyPlaces
  cases v.stage with
  | none => simp
  | some stage =>
    simp only [List.mem_filterMap, Option.some.injEq, exists_eq_left']
    refine exists_congr fun c => and_congr_right fun _ => ?_
    split
    · rename_i p hp
      rw [hp]
      simp
    · rename_i hne
      exact ⟨fun h => absurd h (by simp), fun h => absurd h (hne place)⟩

/-- A budget that a target uses up is, less one, enough for what it leads to. -/
theorem rank_lt_of_leads {rank : Vertex → Nat}
    (hrank : ∀ v ∈ d.vertices, ∀ u, d.Leads v u → rank u < rank v) (hv : v ∈ d.vertices)
    {budget : Nat} (hbudget : rank v < budget + 1) (hl : d.Leads v u) : rank u < budget :=
  Nat.lt_of_lt_of_le (hrank v hv u hl) (Nat.le_of_lt_succ hbudget)

/-- The targets that a target refers to are those it leads to. -/
theorem mem_referenced : u ∈ d.referenced v ↔ d.Leads v u := by
  simp only [referenced, verticesAt, List.mem_filterMap, Vertex.references, List.mem_append,
    Option.mem_toList, mem_copyPlaces]
  constructor
  · rintro ⟨place, (hp | ⟨stage, hs, c, hc, hsource⟩) | hp, hu⟩
    · exact ⟨_, .base hp hu⟩
    · exact ⟨_, .copy hs hc hsource hu⟩
    · exact ⟨_, .dependsOn hp hu⟩
  · rintro ⟨edge, hl⟩
    cases hl with
    | base hp hu => exact ⟨_, .inl (.inl hp), hu⟩
    | copy hs hc hsource hu => exact ⟨_, .inl (.inr ⟨_, hs, _, hc, hsource⟩), hu⟩
    | dependsOn hp hu => exact ⟨_, .inr hp, hu⟩

namespace WellFormed

variable (hd : d.WellFormed)

include hd in
theorem eq_of_name_eq (hv : v ∈ d.vertices) (hu : u ∈ d.vertices) (h : v.name = u.name) : v = u :=
  List.inj_on_of_nodup_map hd.nodup hv hu h

include hd in
/-- No target leads to itself. -/
theorem irrefl (v : Vertex) : ¬TransGen d.Leads v v := by
  obtain ⟨rank, _, hrank⟩ := hd.ranked
  have hlt : ∀ {v u}, v ∈ d.vertices → TransGen d.Leads v u → rank u < rank v := by
    intro v u hv h
    induction h with
    | single hvu => exact hrank v hv _ hvu
    | tail hvb hbu ih => exact Nat.lt_trans (hrank _ (mem_of_transGen hvb) _ hbu) ih
  exact fun h => Nat.lt_irrefl _ (hlt (mem_of_transGen h) h)

end WellFormed

end Definition

/-! ### Definitions of build files -/

namespace BuildFile

variable {file : BuildFile} {d : Definition} {v u : Vertex}

theorem VertexIs.name_eq {x : String × Entry} (h : VertexIs file d x v) : x.1 = v.name := by
  cases h <;> rfl

theorem RepresentedBy.map_name (h : file.RepresentedBy d) :
    d.vertices.map (·.name) = file.targets.map (·.1) := by
  have hnames : List.Forall₂ (fun x v => x.1 = v.name) file.targets d.vertices :=
    h.vertices.imp fun _ _ => VertexIs.name_eq
  rw [← List.forall₂_map_right_iff, ← List.forall₂_map_left_iff, List.forall₂_eq_eq_eq] at hnames
  exact hnames.symm

theorem RepresentedBy.map_var_name (h : file.RepresentedBy d) :
    d.vars.map (·.name) = file.vars.map (·.1) := by
  have hnames : List.Forall₂ (fun x v => x.1 = v.name) file.vars d.vars :=
    h.vars.imp fun _ _ hx => hx.name.symm
  rw [← List.forall₂_map_right_iff, ← List.forall₂_map_left_iff, List.forall₂_eq_eq_eq] at hnames
  exact hnames.symm

theorem RepresentedBy.declares (h : file.RepresentedBy d) (hv : v ∈ d.vertices) :
    Declares file.targets v.name := by
  rw [Declares, ← h.map_name]
  exact List.mem_map_of_mem hv

/-- The vertex at a place has the name that the place stands for. -/
theorem name_of_names {place : Nat} {name : String} (h : d.Names place name)
    (hu : d.vertices[place]? = some u) : u.name = name := by
  obtain ⟨v, hv, rfl⟩ := h
  rw [hv] at hu
  rw [Option.some.inj hu]

/-- The stage of a target calls the target it starts from by its name. -/
theorem RepresentedBy.base_eq (h : file.RepresentedBy d) (hv : v ∈ d.vertices) {stage : Stage}
    (hs : v.stage = some stage) (hl : d.Links .base v u) : stage.base = u.name := by
  obtain ⟨x, _, hx⟩ := exists_of_mem_right h.vertices hv
  cases hl with
  | base hp hu =>
    cases hx with
    | aggregate => cases hp
    | stage _ _ hparent =>
      cases hs
      cases hp
      cases hparent with
      | target hnames => exact (name_of_names hnames hu).symm

/-- What a target of the definition refers to, the target of its name refers to
    in the file. -/
theorem RepresentedBy.links (h : file.RepresentedBy d) {edge : Edge} (hv : v ∈ d.vertices)
    (hl : d.Links edge v u) : Links file.targets edge v.name u.name := by
  obtain ⟨⟨name, entry⟩, hmem, hx⟩ := exists_of_mem_right h.vertices hv
  have hdeclares := h.declares hl.mem
  cases hx with
  | aggregate _ hplaces =>
    cases hl with
    | base hp => cases hp
    | copy hs => cases hs
    | dependsOn hp hu =>
      obtain ⟨n, hn, hnames⟩ := exists_of_mem_right hplaces hp
      exact .dependsOn hmem (name_of_names hnames hu ▸ hn)
  | stage _ hstage hparent hplaces =>
    cases hl with
    | base hp hu =>
      cases hp
      cases hparent with
      | target hnames =>
        exact .base hmem (name_of_names hnames hu ▸ hstage.base) hdeclares
    | copy hs hc hsource hu =>
      cases hs
      obtain ⟨c', hc', hcopy⟩ := exists_of_mem_right hstage.copies hc
      have hrel := hcopy.source
      rw [hsource] at hrel
      generalize hwritten : c'.source = written at hrel
      cases hrel with
      | some hsourceIs =>
        cases hsourceIs with
        | vertex hnames =>
          exact .copy hmem hc' (name_of_names hnames hu ▸ hwritten) hdeclares
    | dependsOn hp hu =>
      obtain ⟨n, hn, hnames⟩ := exists_of_mem_right hplaces hp
      exact .dependsOn hmem (name_of_names hnames hu ▸ hn)

/-- Every place that a target refers to is that of a target. -/
theorem RepresentedBy.exists_of_mem_references (h : file.RepresentedBy d) (hv : v ∈ d.vertices)
    {place : Nat} (hplace : place ∈ v.references) : ∃ u, d.vertices[place]? = some u := by
  have hnamed : ∀ {name}, d.Names place name → ∃ u, d.vertices[place]? = some u :=
    fun ⟨u, hu, _⟩ => ⟨u, hu⟩
  obtain ⟨⟨name, entry⟩, _, hx⟩ := exists_of_mem_right h.vertices hv
  simp only [Vertex.references, List.mem_append, Option.mem_toList, Definition.mem_copyPlaces]
    at hplace
  cases hx with
  | aggregate _ hplaces =>
    rcases hplace with (hp | ⟨_, hs, _⟩) | hp
    · cases hp
    · cases hs
    · obtain ⟨_, _, hnames⟩ := exists_of_mem_right hplaces hp
      exact hnamed hnames
  | stage _ hstage hparent hplaces =>
    rcases hplace with (hp | ⟨_, hs, c, hc, hsource⟩) | hp
    · cases hp
      cases hparent with
      | target hnames => exact hnamed hnames
    · cases hs
      obtain ⟨c', _, hcopy⟩ := exists_of_mem_right hstage.copies hc
      have hrel := hcopy.source
      rw [hsource] at hrel
      generalize c'.source = written at hrel
      cases hrel with
      | some hsourceIs =>
        cases hsourceIs with
        | vertex hnames => exact hnamed hnames
    · obtain ⟨_, _, hnames⟩ := exists_of_mem_right hplaces hp
      exact hnamed hnames

/-- A target without a stage starts from nothing. -/
theorem RepresentedBy.stage_of_links_base (h : file.RepresentedBy d) (hv : v ∈ d.vertices)
    (hl : d.Links .base v u) : v.stage.isSome := by
  obtain ⟨x, _, hx⟩ := exists_of_mem_right h.vertices hv
  cases hx with
  | aggregate =>
    cases hl with
    | base hp => cases hp
  | stage => rfl

/-- A target without a stage depends on something. -/
theorem RepresentedBy.exists_dependency (h : file.RepresentedBy d)
    {secrets : List SecretSource} (hr : file.Resolvable secrets) (hv : v ∈ d.vertices)
    (hs : v.stage = none) : ∃ u, d.Links .dependsOn v u := by
  obtain ⟨⟨name, entry⟩, hmem, hx⟩ := exists_of_mem_right h.vertices hv
  cases hx with
  | aggregate hstage hplaces =>
    obtain ⟨n, names, hn⟩ := List.exists_cons_of_ne_nil (hr.nonempty name entry hmem hstage)
    rw [hn] at hplaces
    cases hplaces with
    | cons hnames =>
      obtain ⟨u, hu, _⟩ := hnames
      exact ⟨u, .dependsOn List.mem_cons_self hu⟩
  | stage => cases hs

/-- A definition that a build file was resolved to is well formed: its targets
    are ranked by the order in which they can be sorted. -/
theorem wellFormed_of_resolve {secrets : List SecretSource}
    (h : file.resolve secrets = .ok d) : d.WellFormed := by
  obtain ⟨rfl, hr, order, horder⟩ := (Resolution.resolve_outcome file secrets).of_ok h
  have hrep := Resolution.representedBy_resolved hr
  refine ⟨?_, fun v hv stage hs u hl => hrep.base_eq hv hs hl,
    fun v => order.idxOf v.name, fun v hv => ?_, fun v hv u hl => ?_⟩
  · rw [hrep.map_name]
    exact hr.targets_nodup
  · -- The order is no longer than there are targets.
    have hsub : order.Subperm (file.targets.map (·.1)) :=
      List.subperm_of_subset horder.ordered.nodup fun n hn => (horder.mem_iff n).1 hn
    have hle := hsub.length_le
    rw [← hrep.map_name, List.length_map] at hle
    exact Nat.lt_of_lt_of_le
      (List.idxOf_lt_length_iff.2 ((horder.mem_iff _).2 (hrep.declares hv))) hle
  · obtain ⟨edge, hl⟩ := hl
    exact horder.ordered.idxOf_lt ((horder.mem_iff _).2 (hrep.declares hv))
      ⟨edge, hrep.links hv hl⟩

/-- All places in a definition are those of targets. -/
theorem places_of_resolve {secrets : List SecretSource} (h : file.resolve secrets = .ok d) :
    ∀ v ∈ d.vertices, ∀ place ∈ v.references, ∃ u, d.vertices[place]? = some u := by
  obtain ⟨rfl, hr, _⟩ := (Resolution.resolve_outcome file secrets).of_ok h
  intro v hv place hplace
  exact (Resolution.representedBy_resolved hr).exists_of_mem_references hv hplace

/-- The variables of a definition have distinct names. -/
theorem vars_nodup_of_resolve {secrets : List SecretSource} (h : file.resolve secrets = .ok d) :
    (d.vars.map (·.name)).Nodup := by
  obtain ⟨rfl, hr, _⟩ := (Resolution.resolve_outcome file secrets).of_ok h
  rw [(Resolution.representedBy_resolved hr).map_var_name]
  exact hr.vars_nodup

end BuildFile

end ContainerBuild
