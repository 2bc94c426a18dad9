import ContainerBuild.Definition.Resolution
import Mathlib.Data.List.Nodup
import Mathlib.Logic.Relation

/-!
# The graph of a build file

The targets of a build file are the vertices of a graph, before any of its
names is resolved. `Links` says which names a target refers to, and by which
kind of edge: by its base and its copies to what is declared, and by its
dependencies to whatever it names.

Resolution follows the same links, in an order of its own
(`links_iff_mem_edges`). A bare list of targets is resolved as the description
of a target with nothing but dependencies (`Entry.toTarget`), so all that is
said here is said of descriptions.
-/

namespace ContainerBuild

theorem OneOrMany.isEmpty_iff {α : Type} {items : OneOrMany α} :
    items.isEmpty = true ↔ items = .many [] := by
  cases items <;> simp [OneOrMany.isEmpty]

namespace BuildFile

/-- A target is more than its dependencies. -/
def Target.DescribesStage (t : Target) : Prop :=
  t ≠ { dependsOn := t.dependsOn }

instance (t : Target) : Decidable t.DescribesStage :=
  inferInstanceAs (Decidable (t ≠ { dependsOn := t.dependsOn }))

theorem Target.hasStage_eq_false_iff {t : Target} :
    t.hasStage = false ↔ t = { dependsOn := t.dependsOn } := by
  cases t
  simp only [hasStage, Bool.or_eq_false_iff, Option.isSome_eq_false_iff, Option.isNone_iff_eq_none,
    Bool.not_eq_false', List.isEmpty_iff, OneOrMany.isEmpty_iff, String.isEmpty_iff,
    Target.mk.injEq, and_assoc, true_and]

theorem Target.hasStage_iff {t : Target} : t.hasStage = true ↔ t.DescribesStage := by
  rw [DescribesStage, ne_eq, ← Target.hasStage_eq_false_iff, Bool.not_eq_false]

/-- A target as a description: a bare list is that of the dependencies. -/
def Entry.toTarget : Entry → Target
  | .aggregate names => { dependsOn := names }
  | .target t => t

/-! ### Links -/

variable (targets : List (String × Entry))

/-- A target of the name is declared. -/
def Declares (name : String) : Prop :=
  name ∈ targets.map (·.1)

/-- The target `a` refers to `b` by an edge of the kind. -/
inductive Links : Edge → String → String → Prop
  | base {a b : String} {entry : Entry} :
    (a, entry) ∈ targets → entry.toTarget.base = some b → Declares targets b → Links .base a b
  | copy {a b : String} {entry : Entry} {c : Copy} :
    (a, entry) ∈ targets → c ∈ entry.toTarget.copies.toList → c.source = some b →
    Declares targets b → Links .copy a b
  | dependsOn {a b : String} {entry : Entry} :
    (a, entry) ∈ targets → b ∈ entry.toTarget.dependsOn → Links .dependsOn a b

/-- The target `a` refers to `b`. -/
def Leads (a b : String) : Prop :=
  ∃ edge, Links targets edge a b

variable {targets}

theorem declares_of_mem {name : String} {entry : Entry} (h : (name, entry) ∈ targets) :
    Declares targets name :=
  List.mem_map_of_mem h

theorem Declares.exists_mem {name : String} (h : Declares targets name) :
    ∃ entry, (name, entry) ∈ targets := by
  obtain ⟨⟨_, entry⟩, hmem, rfl⟩ := List.mem_map.1 h
  exact ⟨entry, hmem⟩

theorem Links.declares_left {edge : Edge} {a b : String} (h : Links targets edge a b) :
    Declares targets a := by
  cases h with
  | base ht => exact declares_of_mem ht
  | copy ht => exact declares_of_mem ht
  | dependsOn ht => exact declares_of_mem ht

/-- Targets of distinct names are told apart by their names. -/
theorem entry_unique (hd : (targets.map (·.1)).Nodup) {name : String} {entry entry' : Entry}
    (h : (name, entry) ∈ targets) (h' : (name, entry') ∈ targets) : entry = entry' := by
  have := List.inj_on_of_nodup_map hd h h' rfl
  exact (Prod.mk.inj this).2

end BuildFile

/-! ### Names and edges in resolution -/

namespace Resolution

open BuildFile (Entry Declares Links)

variable {s : Scope} {name : String} {entry : Entry}

theorem Scope.declares_iff : s.declares name = true ↔ Declares s.targets name := by
  simp [declares, Declares]

theorem lookup_eq_none_iff : s.targets.lookup name = none ↔ ¬Declares s.targets name := by
  rw [← Option.not_isSome_iff_eq_none, List.lookup_isSome_iff, Declares, List.mem_map]
  simp only [beq_iff_eq, eq_comm (a := name)]

theorem mem_of_lookup (h : s.targets.lookup name = some entry) : (name, entry) ∈ s.targets := by
  obtain ⟨before, after, heq, _⟩ := List.lookup_eq_some_iff.1 h
  rw [heq]
  exact List.mem_append_cons_self

theorem edges_toTarget : edges s entry = edges s (.target entry.toTarget) := by
  cases entry <;> rfl

/-- The edges of a target. If it has no stage, it has no base and no copies
    either. -/
theorem mem_edges {edge : Edge} {b : String} :
    (edge, b) ∈ edges s entry ↔
      (edge = .base ∧ entry.toTarget.base = some b ∧ Declares s.targets b) ∨
      (edge = .copy ∧ (∃ c ∈ entry.toTarget.copies.toList, c.source = some b) ∧
        Declares s.targets b) ∨
      (edge = .dependsOn ∧ b ∈ entry.toTarget.dependsOn) := by
  rw [edges_toTarget]
  generalize entry.toTarget = t
  cases ht : t.hasStage with
  | true =>
    simp only [edges, ht, if_true, List.mem_append, List.mem_map, List.mem_filter,
      List.mem_filterMap, Option.mem_toList, Scope.declares_iff, Prod.mk.injEq, or_assoc]
    constructor
    · rintro (⟨_, ⟨hb, hd⟩, rfl, rfl⟩ | ⟨_, ⟨hc, hd⟩, rfl, rfl⟩ | ⟨_, hb, rfl, rfl⟩)
      · exact .inl ⟨rfl, hb, hd⟩
      · exact .inr (.inl ⟨rfl, hc, hd⟩)
      · exact .inr (.inr ⟨rfl, hb⟩)
    · rintro (⟨rfl, hb, hd⟩ | ⟨rfl, hc, hd⟩ | ⟨rfl, hb⟩)
      · exact .inl ⟨b, ⟨hb, hd⟩, rfl, rfl⟩
      · exact .inr (.inl ⟨b, ⟨hc, hd⟩, rfl, rfl⟩)
      · exact .inr (.inr ⟨b, hb, rfl, rfl⟩)
  | false =>
    have hbare := BuildFile.Target.hasStage_eq_false_iff.1 ht
    have hbase : t.base = none := by rw [hbare]
    have hcopies : t.copies.toList = [] := by rw [hbare]; rfl
    simp only [edges, ht, Bool.false_eq_true, if_false, List.mem_map, Prod.mk.injEq, hbase, hcopies,
      List.not_mem_nil, false_and, exists_false, and_false, reduceCtorEq, false_or]
    constructor
    · rintro ⟨_, hb, rfl, rfl⟩
      exact ⟨rfl, hb⟩
    · rintro ⟨rfl, hb⟩
      exact ⟨b, hb, rfl, rfl⟩

/-- Only a dependency can lead to what is not declared. -/
theorem edge_of_not_declares {e : Edge × String} (he : e ∈ edges s entry)
    (hd : ¬Declares s.targets e.2) : e.1 = .dependsOn := by
  obtain ⟨_, _, hd'⟩ | ⟨_, _, hd'⟩ | ⟨he, _⟩ := mem_edges.1 he
  · exact absurd hd' hd
  · exact absurd hd' hd
  · exact he

/-- The links of a target are the edges that resolution follows from it. -/
theorem links_iff_mem_edges {edge : Edge} {a b : String} :
    Links s.targets edge a b ↔ ∃ entry, (a, entry) ∈ s.targets ∧ (edge, b) ∈ edges s entry := by
  constructor
  · intro h
    cases h with
    | base ht hb hd => exact ⟨_, ht, mem_edges.2 (.inl ⟨rfl, hb, hd⟩)⟩
    | copy ht hc hb hd => exact ⟨_, ht, mem_edges.2 (.inr (.inl ⟨rfl, ⟨_, hc, hb⟩, hd⟩))⟩
    | dependsOn ht hb => exact ⟨_, ht, mem_edges.2 (.inr (.inr ⟨rfl, hb⟩))⟩
  · rintro ⟨entry, ht, he⟩
    obtain ⟨rfl, hb, hd⟩ | ⟨rfl, ⟨c, hc, hb⟩, hd⟩ | ⟨rfl, hb⟩ := mem_edges.1 he
    · exact .base ht hb hd
    · exact .copy ht hc hb hd
    · exact .dependsOn ht hb

end Resolution

end ContainerBuild
