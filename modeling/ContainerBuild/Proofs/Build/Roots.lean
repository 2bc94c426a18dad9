import ContainerBuild.Build.Run
import ContainerBuild.Proofs.Definition.Graph

/-!
# What a request stands for

A request stands for the target that it names, or for an aggregate of the
targets if it names several. It is refused only if it names something that is
not declared, where a request without names is one for the default target
(`root_outcome`).
-/

namespace ContainerBuild.Definition

variable (d : Definition)

/-- The names that a request asks for. -/
def asked : List String → List String
  | [] => [defaultTarget]
  | names => names

theorem asked_of_two_le {requested : List String} (h : 2 ≤ requested.length) :
    asked requested = requested := by
  cases requested with
  | nil => exact absurd h (by simp)
  | cons => rfl

/-- What the root of a request is. -/
inductive RootIs : List String → Vertex → Prop
  | default {v : Vertex} : v ∈ d.vertices → v.name = defaultTarget → RootIs [] v
  | target {v : Vertex} : v ∈ d.vertices → RootIs [v.name] v
  | aggregate {requested : List String} {places : List Nat} : 2 ≤ requested.length →
    List.Forall₂ (fun name place => d.Names place name) requested places →
    RootIs requested (.aggregate defaultTarget places)

variable {d}

theorem Names.lt_length {place : Nat} {name : String} (h : d.Names place name) :
    place < d.vertices.length := by
  obtain ⟨v, hv, _⟩ := h
  exact (List.getElem?_eq_some_iff.1 hv).1

theorem RootIs.isRoot {requested : List String} {root : Vertex} (h : d.RootIs requested root) :
    d.IsRoot root := by
  cases h with
  | default hv => exact .target hv
  | target hv => exact .target hv
  | aggregate _ hplaces =>
    refine .aggregate fun place hplace => ?_
    obtain ⟨_, _, hnames⟩ := exists_of_mem_right hplaces hplace
    exact hnames.lt_length

/-- All that a request with a root asks for is declared. -/
theorem RootIs.mem_names {requested : List String} {root : Vertex} (h : d.RootIs requested root) :
    ∀ name ∈ asked requested, name ∈ d.vertices.map (·.name) := by
  intro name hname
  cases h with
  | default hv hroot =>
    rw [List.mem_singleton.1 hname, ← hroot]
    exact List.mem_map_of_mem hv
  | target hv =>
    rw [List.mem_singleton.1 hname]
    exact List.mem_map_of_mem hv
  | aggregate hlength hplaces =>
    rw [asked_of_two_le hlength] at hname
    obtain ⟨place, _, v, hv, rfl⟩ := exists_of_mem_right hplaces.flip hname
    exact List.mem_map_of_mem (List.mem_of_getElem? hv)

variable (d)

/-- What is known if a request asks for something that is not declared. -/
def NotFound (name : String) (e : Error) : Prop :=
  e = .targetNotFound name ∧ name ∉ d.vertices.map (·.name)

theorem notFound {name : String} (h : ∀ v ∈ d.vertices, ¬(v.name == name) = true) :
    d.NotFound name (.targetNotFound name) := by
  refine ⟨rfl, fun hmem => ?_⟩
  obtain ⟨v, hv, hname⟩ := List.mem_map.1 hmem
  exact h v hv (beq_iff_eq.2 hname)

theorem find?_outcome (name : String) :
    Outcome (fun v => v ∈ d.vertices ∧ v.name = name) (d.NotFound name)
      (match d.vertices.find? (·.name == name) with
        | some v => Except.ok v
        | none => Except.error (Error.targetNotFound name)) := by
  cases h : d.vertices.find? (·.name == name) with
  | some v =>
    have hname := List.find?_some (p := fun u : Vertex => u.name == name) h
    exact .ok ⟨List.mem_of_find?_eq_some h, beq_iff_eq.1 hname⟩
  | none => exact .error (d.notFound (List.find?_eq_none.1 h))

theorem place_outcome (name : String) :
    Outcome (fun place => d.Names place name) (d.NotFound name)
      (match d.find? name with
        | some place => Except.ok place
        | none => Except.error (Error.targetNotFound name)) := by
  cases h : d.find? name with
  | some place =>
    obtain ⟨hlt, heq, _⟩ := List.findIdx?_eq_some_iff_getElem.1 h
    exact .ok ⟨d.vertices[place], List.getElem?_eq_getElem hlt, beq_iff_eq.1 heq⟩
  | none =>
    refine .error (d.notFound fun v hv => ?_)
    exact Bool.eq_false_iff.1 (List.findIdx?_eq_none_iff.1 h v hv)

/-- A request has a root, or asks for something that is not declared. -/
theorem root_outcome (requested : List String) :
    Outcome (d.RootIs requested) (fun e => ∃ name ∈ asked requested, d.NotFound name e)
      (d.root requested) := by
  match requested with
  | [] =>
    refine ((d.find?_outcome defaultTarget).imp fun v hv => .default hv.1 hv.2).imp_error ?_
    exact fun e he => ⟨_, List.mem_singleton_self _, he⟩
  | [name] =>
    refine ((d.find?_outcome name).imp ?_).imp_error ?_
    · rintro v ⟨hv, rfl⟩
      exact .target hv
    · exact fun e he => ⟨_, List.mem_singleton_self _, he⟩
  | a :: b :: names =>
    have hplaces : ∀ name ∈ a :: b :: names,
        Outcome (fun place => d.Names place name)
          (fun e => ∃ name ∈ asked (a :: b :: names), d.NotFound name e)
          (match d.find? name with
            | some place => Except.ok place
            | none => Except.error (Error.targetNotFound name)) := fun name hname =>
      (d.place_outcome name).imp_error fun e he => ⟨name, hname, he⟩
    exact (Outcome.mapM hplaces).bind fun places hplaces =>
      .ok (.aggregate (Nat.le_add_left ..) hplaces)

end ContainerBuild.Definition
