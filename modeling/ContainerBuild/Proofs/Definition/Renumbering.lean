import ContainerBuild.Proofs.Build.Images
import ContainerBuild.Proofs.Build.Roots
import Mathlib.Data.List.Nodup
import Mathlib.Data.Set.Function
import Mathlib.Order.Interval.Set.Defs

/-!
# Renumbered definitions

The places by which targets refer to each other depend on the order in which a
definition has them. A definition is a *renumbering* of another one if it has
the same targets at other places, and every place that a target refers to is
changed along with the target at it (`Renumbering`).

Nothing of a build depends on the numbers. Every step of a walk from a renumbered
target goes to the renumbered targets, in the same order and under the same
names, so

* a request has the renumbered root, or the same error (`Renumbering.root_eq`);
* the images found, the document and the plan of a renumbered root are the same
  (`Renumbering.images_eq`, `Renumbering.document_eq`, `Renumbering.plan_eq`).
-/

namespace ContainerBuild

variable (σ : Nat → Nat)

/-- A source with another number for its place. -/
def CopySource.renumber : CopySource → CopySource
  | .vertex place => .vertex (σ place)
  | .image reference => .image reference

/-- A copy with another number for its source. -/
def Copy.renumber (c : Copy) : Copy :=
  { c with source := c.source.map (·.renumber σ) }

/-- A stage with other numbers for what it copies from. -/
def Stage.renumber (s : Stage) : Stage :=
  { s with copies := s.copies.map (·.renumber σ) }

/-- A target with other numbers for what it refers to. -/
def Vertex.renumber (v : Vertex) : Vertex :=
  { name := v.name
    stage := v.stage.map (·.renumber σ)
    parent := v.parent.map σ
    dependsOn := v.dependsOn.map σ }

/-- A need with other numbers. -/
def Need.renumber : Need → Need
  | .vertex v => .vertex (v.renumber σ)
  | .image reference => .image reference

/-- The definition `d'` has the targets and the variables of `d`, each target at
    the place that `σ` gives for its place in `d`. -/
structure Definition.Renumbering (d d' : Definition) : Prop where
  length_eq : d'.vertices.length = d.vertices.length
  bijOn : Set.BijOn σ (Set.Iio d.vertices.length) (Set.Iio d'.vertices.length)
  vertices : ∀ place, d'.vertices[σ place]? = d.vertices[place]?.map (·.renumber σ)
  vars : d'.vars = d.vars

/-! ### Names and places -/

section

variable {α β : Type} {l : List α} {l' : List β} {key : α → String} {key' : β → String}
  {name : String}

/-- The place of a name among distinct ones is the one at which it stands. -/
theorem findIdx?_eq_some_iff_of_nodup (h : (l.map key).Nodup) {place : Nat} :
    l.findIdx? (key · == name) = some place ↔ (l.map key)[place]? = some name := by
  rw [List.findIdx?_eq_some_iff_getElem]
  constructor
  · rintro ⟨hlt, hname, _⟩
    rw [List.getElem?_map, List.getElem?_eq_getElem hlt, Option.map_some, beq_iff_eq.1 hname]
  · intro hname
    obtain ⟨hlt, heq⟩ := List.getElem?_eq_some_iff.1 hname
    refine ⟨List.length_map (f := key) ▸ hlt, ?_, fun j hj hj' => ?_⟩
    · rw [← heq, List.getElem_map]
      exact beq_self_eq_true _
    · refine hj.ne ((List.getElem?_inj (hj.trans hlt) h).1 ?_)
      rw [hname, List.getElem?_eq_getElem (hj.trans hlt), List.getElem_map, beq_iff_eq.1 hj']

/-- The places of names are renumbered if the names are. -/
theorem findIdx?_eq_map {σ : Nat → Nat} (hl : (l.map key).Nodup) (hl' : (l'.map key').Nodup)
    (hσ : Set.BijOn σ (Set.Iio l.length) (Set.Iio l'.length))
    (hnames : ∀ place, (l'.map key')[σ place]? = (l.map key)[place]?) :
    l'.findIdx? (key' · == name) = (l.findIdx? (key · == name)).map σ := by
  ext place
  rw [Option.map_eq_some_iff, findIdx?_eq_some_iff_of_nodup hl']
  simp only [findIdx?_eq_some_iff_of_nodup hl]
  constructor
  · intro hname
    have hlt : place < l'.length := by
      rw [← List.length_map (f := key')]
      exact (List.getElem?_eq_some_iff.1 hname).1
    obtain ⟨place, _, rfl⟩ := hσ.surjOn hlt
    exact ⟨place, hnames place ▸ hname, rfl⟩
  · rintro ⟨place, hname, rfl⟩
    exact (hnames place).trans hname

end

/-- What is found of a name, or the error that nothing is. -/
def found {α : Type} (name : String) : Option α → Except Error α
  | some a => .ok a
  | none => .error (.targetNotFound name)

theorem found_map {α β : Type} {f : α → β} {name : String} (a : Option α) :
    found name (a.map f) = (found name a).map f := by
  cases a <;> rfl

section

variable {d : Definition}

theorem Definition.root_nil :
    d.root [] = found defaultTarget (d.vertices.find? (·.name == defaultTarget)) := by
  unfold root
  cases h : d.vertices.find? (·.name == defaultTarget) <;> simp only [h, found]

theorem Definition.root_singleton {name : String} :
    d.root [name] = found name (d.vertices.find? (·.name == name)) := by
  unfold root
  cases h : d.vertices.find? (·.name == name) <;> simp only [h, found]

theorem Definition.root_cons_cons {a b : String} {names : List String} :
    d.root (a :: b :: names) =
      ((a :: b :: names).mapM fun name => found name (d.find? name)).map
        (.aggregate defaultTarget) := by
  have hplaces : d.root (a :: b :: names) =
      (a :: b :: names).mapM (fun name => found name (d.find? name)) >>= fun places =>
        pure (.aggregate defaultTarget places) := by
    unfold root
    dsimp only
    congr 2
    funext name
    cases d.find? name <;> rfl
  rw [hplaces]
  cases (a :: b :: names).mapM fun name => found name (d.find? name) <;> rfl

end

/-- Results that are changed one by one are changed together. -/
theorem mapM_map {ε α β γ : Type} {f : α → Except ε β} {g : β → γ} (l : List α) :
    l.mapM (fun a => (f a).map g) = (l.mapM f).map (List.map g) := by
  induction l with
  | nil => rfl
  | cons a l ih =>
    rw [List.mapM_cons, List.mapM_cons, ih]
    cases f a with
    | error => rfl
    | ok b => cases l.mapM f <;> rfl

/-! ### Renumbered targets -/

namespace Vertex

variable (v : Vertex)

@[simp]
theorem renumber_name : (v.renumber σ).name = v.name :=
  rfl

theorem output_renumber : (v.renumber σ).output = v.output := by
  rw [output, output, renumber]
  cases v.stage <;> rfl

theorem builtAlone_renumber : (v.renumber σ).builtAlone = v.builtAlone := by
  rw [builtAlone, builtAlone, output_renumber]
  exact congrArg (v.output.isSome || !·) List.isEmpty_map

theorem step?_renumber : (v.renumber σ).step? = v.step? := by
  rw [step?, step?, renumber]
  cases v.stage <;> rfl

theorem copyPlaces_renumber : (v.renumber σ).copyPlaces = v.copyPlaces.map σ := by
  rw [copyPlaces, copyPlaces, renumber]
  cases v.stage with
  | none => rfl
  | some s =>
    simp only [Option.map_some, Stage.renumber, List.filterMap_map, List.map_filterMap]
    refine List.filterMap_congr fun c _ => ?_
    obtain ⟨source, src, dst⟩ := c
    rcases source with _ | ⟨place | reference⟩ <;> rfl

theorem references_renumber : (v.renumber σ).references = v.references.map σ := by
  simp only [references, copyPlaces_renumber, List.map_append]
  rw [renumber]
  cases v.parent <;> rfl

end Vertex

namespace Definition.Renumbering

variable {σ} {d d' : Definition} (h : d.Renumbering σ d')

/-! ### Targets at places -/

include h in
theorem verticesAt_eq (places : List Nat) :
    d'.verticesAt (places.map σ) = (d.verticesAt places).map (·.renumber σ) := by
  simp only [verticesAt, List.filterMap_map, List.map_filterMap]
  exact List.filterMap_congr fun place _ => h.vertices place

include h in
theorem nameAt_eq (place : Nat) : d'.nameAt (σ place) = d.nameAt place := by
  rw [nameAt, nameAt, h.vertices]
  cases d.vertices[place]? <;> rfl

/-! ### Walks -/

section Walk

variable {next next' : Vertex → List Vertex}
  (hnext : ∀ v, next' (v.renumber σ) = (next v).map (·.renumber σ))

include hnext in
/-- A walk meets the same names, so it lists the same targets. -/
theorem postorderFrom_eq (budget : Nat) (listed : List Vertex) (v : Vertex) :
    postorderFrom next' budget (listed.map (·.renumber σ)) (v.renumber σ) =
      (postorderFrom next budget listed v).map (·.renumber σ) := by
  induction budget generalizing listed v with
  | zero => rfl
  | succ budget ih =>
    have hlisted : (listed.map (·.renumber σ)).any (·.name == v.name) =
        listed.any (·.name == v.name) := List.any_map
    have hfold : ∀ roots listed : List Vertex,
        (roots.map (·.renumber σ)).foldl (postorderFrom next' budget)
            (listed.map (·.renumber σ)) =
          (roots.foldl (postorderFrom next budget) listed).map (·.renumber σ) := by
      intro roots
      induction roots with
      | nil => exact fun _ => rfl
      | cons r roots ihroots =>
        intro listed
        rw [List.map_cons, List.foldl_cons, List.foldl_cons, ih, ihroots]
    rw [postorderFrom, postorderFrom, Vertex.renumber_name, hlisted, hnext, hfold]
    split_ifs with hname
    · rfl
    · rw [List.map_append, List.map_singleton]

include h hnext in
theorem postorder_eq (root : Vertex) :
    d'.postorder next' (root.renumber σ) = (d.postorder next root).map (·.renumber σ) := by
  rw [postorder, postorder, depth, depth, h.length_eq]
  exact postorderFrom_eq hnext _ [] root

end Walk

/-! ### Documents and plans -/

include h in
theorem referenced_eq (v : Vertex) :
    d'.referenced (v.renumber σ) = (d.referenced v).map (·.renumber σ) := by
  rw [referenced, referenced, Vertex.references_renumber, h.verticesAt_eq]

include h in
theorem sourceName_eq (c : CopySource) : d'.sourceName (c.renumber σ) = d.sourceName c := by
  cases c with
  | vertex place => exact h.nameAt_eq place
  | image => rfl

include h in
theorem instructions_eq (values : VarValues) (s : Stage) :
    d'.instructions values (s.renumber σ) = d.instructions values s := by
  have hcopies : (s.copies.map (·.renumber σ)).map
      (fun c => Dockerfile.Instruction.copy (c.source.map d'.sourceName) c.src c.dst) =
        s.copies.map fun c => .copy (c.source.map d.sourceName) c.src c.dst := by
    rw [List.map_map]
    refine List.map_congr_left fun c _ => ?_
    simp only [Function.comp_apply, Copy.renumber, Option.map_map]
    congr 2
    exact funext h.sourceName_eq
  rw [instructions, instructions, Stage.renumber, hcopies]
  rfl

include h in
theorem stagesOf_eq (values : VarValues) (v : Vertex) :
    d'.stagesOf values (v.renumber σ) = d.stagesOf values v := by
  rw [stagesOf, stagesOf, Vertex.renumber]
  cases v.stage with
  | none => rfl
  | some s =>
    simp only [Option.map_some, h.instructions_eq]
    rfl

include h in
theorem document_eq (root : Vertex) (values : VarValues) (frontend : String) :
    d'.document (root.renumber σ) values frontend = d.document root values frontend := by
  rw [document, document, h.postorder_eq h.referenced_eq, List.flatMap_map]
  simp only [h.stagesOf_eq]

include h in
theorem required_eq (v : Vertex) :
    d'.required (v.renumber σ) = (d.required v).map (·.renumber σ) := by
  have hparent : (v.renumber σ).parent.toList = v.parent.toList.map σ := by
    rw [Vertex.renumber]
    cases v.parent <;> rfl
  have hdependsOn : (v.renumber σ).dependsOn = v.dependsOn.map σ := rfl
  rw [required, required, hparent, hdependsOn, h.verticesAt_eq, h.verticesAt_eq, List.filter_map,
    List.map_append]
  simp only [Function.comp_def, Vertex.builtAlone_renumber]

include h in
/-- The planner meets the same names, and adds the same steps. -/
theorem planFrom_eq (budget : Nat) (steps : List BuildStep) (v : Vertex) :
    d'.planFrom budget steps (v.renumber σ) = d.planFrom budget steps v := by
  induction budget generalizing steps v with
  | zero => rfl
  | succ budget ih =>
    rw [planFrom, planFrom, Vertex.renumber_name, h.required_eq, List.foldl_map,
      Vertex.step?_renumber]
    simp only [ih]

include h in
theorem plan_eq (root : Vertex) : d'.plan (root.renumber σ) = d.plan root := by
  rw [plan, plan, depth, depth, h.length_eq]
  exact h.planFrom_eq _ [] root

/-! ### Images -/

include h in
theorem needAt_eq (place : Nat) :
    d'.needAt (σ place) = (d.needAt place).map (·.renumber σ) := by
  rw [needAt, needAt, h.vertices]
  cases d.vertices[place]? <;> rfl

include h in
theorem needs_eq (v : Vertex) : d'.needs (v.renumber σ) = (d.needs v).map (·.renumber σ) := by
  obtain ⟨name, stage, parent, dependsOn⟩ := v
  simp only [needs, Vertex.renumber, List.map_append]
  congr 1
  congr 1
  · cases parent with
    | none => cases stage <;> rfl
    | some place =>
      simp only [Option.map_some, h.needAt_eq]
      cases d.needAt place <;> rfl
  · cases stage with
    | none => rfl
    | some s =>
      simp only [Option.map_some, Option.getD_some, Stage.renumber, List.filterMap_map,
        List.map_filterMap]
      refine List.filterMap_congr fun c _ => ?_
      obtain ⟨source, src, dst⟩ := c
      rcases source with _ | ⟨place | reference⟩
      · rfl
      · exact h.needAt_eq place
      · rfl
  · simp only [List.filterMap_map, List.map_filterMap]
    exact List.filterMap_congr fun place _ => h.needAt_eq place

include h in
/-- The search remembers names and images only, and finds both in the same order. -/
theorem walk_eq (budget : Nat) (s : Discovery.State) (v : Vertex) :
    Discovery.walk d' budget s (v.renumber σ) = Discovery.walk d budget s v := by
  induction budget generalizing s v with
  | zero => rfl
  | succ budget ih =>
    have hlook : ∀ s need,
        Discovery.look d' budget s (need.renumber σ) = Discovery.look d budget s need := by
      intro s need
      cases need with
      | image => rfl
      | vertex u =>
        rw [Need.renumber, Discovery.look, Discovery.look, Vertex.renumber_name, ih]
    rw [Discovery.walk_succ, Discovery.walk_succ, h.needs_eq, List.foldl_map]
    simp only [hlook]

include h in
theorem images_eq (root : Vertex) (frontend : String) :
    d'.images (root.renumber σ) frontend = d.images root frontend := by
  rw [images, images, depth, depth, h.length_eq, h.walk_eq, h.vars]

/-! ### Requests -/

section Root

variable (hd : (d.vertices.map (·.name)).Nodup) (hd' : (d'.vertices.map (·.name)).Nodup)

include h hd hd' in
theorem find?_eq (name : String) : d'.find? name = (d.find? name).map σ := by
  refine findIdx?_eq_map hd hd' h.bijOn fun place => ?_
  rw [List.getElem?_map, List.getElem?_map, h.vertices]
  cases d.vertices[place]? <;> rfl

include h hd hd' in
theorem find?_vertices_eq (name : String) :
    d'.vertices.find? (·.name == name) =
      (d.vertices.find? (·.name == name)).map (·.renumber σ) := by
  rw [List.find?_eq_bind_findIdx?_getElem?, List.find?_eq_bind_findIdx?_getElem?]
  change (d'.find? name).bind _ = ((d.find? name).bind _).map _
  rw [h.find?_eq hd hd']
  cases d.find? name with
  | none => rfl
  | some place => exact h.vertices place

include h hd hd' in
/-- A request has the same root, or the same error. -/
theorem root_eq (requested : List String) :
    d'.root requested = (d.root requested).map (·.renumber σ) := by
  have hvertex : ∀ name, found name (d'.vertices.find? (·.name == name)) =
      (found name (d.vertices.find? (·.name == name))).map (·.renumber σ) := by
    intro name
    rw [h.find?_vertices_eq hd hd', found_map]
  match requested with
  | [] =>
    rw [root_nil, root_nil]
    exact hvertex defaultTarget
  | [name] =>
    rw [root_singleton, root_singleton]
    exact hvertex name
  | a :: b :: names =>
    simp only [root_cons_cons, h.find?_eq hd hd', found_map, mapM_map]
    cases (a :: b :: names).mapM fun name => found name (d.find? name) <;> rfl

end Root

end Definition.Renumbering

end ContainerBuild
