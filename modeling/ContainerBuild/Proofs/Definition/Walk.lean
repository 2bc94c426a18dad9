import ContainerBuild.Proofs.Definition.Graph

/-!
# What a walk lists

A walk through a well-formed definition, by whatever part of its links, lists
exactly what the root leads to, the root included, and everything after what it
leads to (`postorder_ordered`, `mem_postorder_iff`). This holds of every root,
also of an aggregate that has the name of a target: an aggregate of no
definition is listed last and nothing leads to it.

Walks that come one after the other list what each of them lists by itself, in
this order, without what has been listed before (`postorder_eq_eraseDups`).

The walk skips a target whose name is listed. Among the targets of the
definition this means the target itself; the budget is enough because what a
target leads to is of a lower rank.
-/

namespace ContainerBuild.Definition

open Relation

variable {d : Definition} {next : Vertex → List Vertex}

/-- What is known of the targets listed so far. -/
structure Listed (d : Definition) (next : Vertex → List Vertex) (listed : List Vertex) :
    Prop where
  ordered : Ordered (fun v u => u ∈ next v) listed
  mem : ∀ v ∈ listed, v ∈ d.vertices

/-- What a walk from some targets adds: these, and otherwise only what they
    lead to. -/
structure Extended (d : Definition) (next : Vertex → List Vertex) (roots listed listed' :
    List Vertex) : Prop where
  known : Listed d next listed'
  subset : listed ⊆ listed'
  walked : ∀ r ∈ roots, r ∈ listed'
  reached : ∀ v ∈ listed', v ∈ listed ∨ ∃ r ∈ roots, ReflTransGen (fun v u => u ∈ next v) r v

theorem Extended.refl {roots listed : List Vertex} (h : Listed d next listed)
    (hroots : ∀ r ∈ roots, r ∈ listed) : Extended d next roots listed listed :=
  ⟨h, fun _ hv => hv, hroots, fun _ => .inl⟩

/-- One walk after the other. -/
theorem extended_foldl {visit : List Vertex → Vertex → List Vertex} {roots listed : List Vertex}
    (hvisit : ∀ r ∈ roots, ∀ l, Listed d next l → Extended d next [r] l (visit l r))
    (h : Listed d next listed) : Extended d next roots listed (roots.foldl visit listed) := by
  induction roots generalizing listed with
  | nil => exact .refl h fun _ hr => absurd hr List.not_mem_nil
  | cons r roots ih =>
    have hr := hvisit r List.mem_cons_self listed h
    have hroots := ih (fun r' hr' => hvisit r' (List.mem_cons_of_mem _ hr')) hr.known
    rw [List.foldl_cons]
    refine ⟨hroots.known, fun v hv => hroots.subset (hr.subset hv), fun r' hr' => ?_,
      fun v hv => ?_⟩
    · rcases List.mem_cons.1 hr' with rfl | hr'
      · exact hroots.subset (hr.walked _ List.mem_cons_self)
      · exact hroots.walked r' hr'
    · rcases hroots.reached v hv with hv | ⟨r', hr', hreach⟩
      · refine (hr.reached v hv).imp_right ?_
        rintro ⟨r', hr', hreach⟩
        exact ⟨r', List.mem_cons.2 (.inl (List.mem_singleton.1 hr')), hreach⟩
      · exact .inr ⟨r', List.mem_cons_of_mem _ hr', hreach⟩

/-- The name that is listed is that of the target itself. -/
theorem Listed.mem_of_any (hd : d.WellFormed) {listed : List Vertex} (h : Listed d next listed)
    {v : Vertex} (hv : v ∈ d.vertices) (hname : listed.any (·.name == v.name)) : v ∈ listed := by
  obtain ⟨u, hu, hname⟩ := List.any_eq_true.1 hname
  exact hd.eq_of_name_eq (h.mem u hu) hv (beq_iff_eq.1 hname) ▸ hu

theorem not_mem_of_not_any {listed : List Vertex} {v : Vertex}
    (hname : ¬listed.any (·.name == v.name)) : v ∉ listed := fun hv =>
  hname (List.any_eq_true.2 ⟨v, hv, beq_self_eq_true _⟩)

variable (hd : d.WellFormed) (hnext : ∀ v u, u ∈ next v → d.Leads v u)

include hnext in
theorem leads_of_transGen {v u : Vertex} (h : TransGen (fun v u => u ∈ next v) v u) :
    TransGen d.Leads v u :=
  TransGen.mono hnext _ _ h

include hd hnext in
/-- Nothing leads back to where a walk began. -/
theorem not_reached_of_next {v r : Vertex} (hr : r ∈ next v) :
    ¬ReflTransGen (fun v u => u ∈ next v) r v := fun h =>
  hd.irrefl v (leads_of_transGen hnext (TransGen.head' hr h))

include hd hnext in
/-- Listing a target after all that it leads to. -/
theorem Extended.concat {listed listed' : List Vertex} {v : Vertex}
    (h : Extended d next (next v) listed listed') (hfresh : v ∉ listed) :
    Ordered (fun v u => u ∈ next v) (listed' ++ [v]) := by
  refine h.known.ordered.concat (fun hv => ?_) h.walked
  rcases h.reached v hv with hv | ⟨r, hr, hreach⟩
  · exact hfresh hv
  · exact not_reached_of_next hd hnext hr hreach

include hd hnext in
/-- A walk from a target of the definition. -/
theorem extended_postorderFrom {rank : Vertex → Nat}
    (hrank : ∀ v ∈ d.vertices, ∀ u, d.Leads v u → rank u < rank v) {budget : Nat} {v : Vertex}
    (hv : v ∈ d.vertices) (hbudget : rank v < budget) {listed : List Vertex}
    (h : Listed d next listed) :
    Extended d next [v] listed (postorderFrom next budget listed v) := by
  induction budget generalizing v listed with
  | zero => exact absurd hbudget (Nat.not_lt_zero _)
  | succ budget ih =>
    rw [postorderFrom]
    split_ifs with hname
    · have hlisted := h.mem_of_any hd hv hname
      exact .refl h fun r hr => List.mem_singleton.1 hr ▸ hlisted
    · have hfresh := not_mem_of_not_any hname
      have hfold : Extended d next (next v) listed
          ((next v).foldl (postorderFrom next budget) listed) := by
        refine extended_foldl (fun u hu l hl => ?_) h
        have hl' := hnext v u hu
        exact ih hl'.mem (rank_lt_of_leads hrank hv hbudget hl') hl
      refine ⟨⟨hfold.concat hd hnext hfresh, fun u hu => ?_⟩,
        fun u hu => List.mem_append_left _ (hfold.subset hu),
        fun r hr => List.mem_append_right _ hr, fun u hu => ?_⟩
      · rcases List.mem_append.1 hu with hu | hu
        · exact hfold.known.mem u hu
        · exact List.mem_singleton.1 hu ▸ hv
      · rcases List.mem_append.1 hu with hu | hu
        · refine (hfold.reached u hu).imp_right ?_
          rintro ⟨r, hr, hreach⟩
          exact ⟨v, List.mem_cons_self, .head hr hreach⟩
        · exact .inr ⟨v, List.mem_cons_self, List.mem_singleton.1 hu ▸ .refl⟩

include hd hnext in
/-- A walk lists what its root leads to, and the root last. -/
theorem postorder_eq_concat (root : Vertex) :
    ∃ listed, d.postorder next root = listed ++ [root] ∧ Extended d next (next root) [] listed := by
  obtain ⟨rank, hlt, hrank⟩ := hd.ranked
  -- Nothing is listed at first, so the root is walked whatever its name is. It
  -- takes one from the budget, and the rest is enough for every rank.
  refine ⟨(next root).foldl (postorderFrom next d.vertices.length) [], rfl, ?_⟩
  refine extended_foldl (fun u hu l hl => ?_) ⟨.nil, fun _ hv => absurd hv List.not_mem_nil⟩
  have hu' := (hnext root u hu).mem
  exact extended_postorderFrom hd hnext hrank hu' (hlt u hu') hl

include hd hnext in
/-- Everything is listed after what it leads to, and once. -/
theorem postorder_ordered (root : Vertex) :
    Ordered (fun v u => u ∈ next v) (d.postorder next root) := by
  obtain ⟨listed, heq, hext⟩ := postorder_eq_concat hd hnext root
  rw [heq]
  exact hext.concat hd hnext List.not_mem_nil

include hd hnext in
/-- What is listed is what the root leads to. -/
theorem mem_postorder_iff {root v : Vertex} :
    v ∈ d.postorder next root ↔ ReflTransGen (fun v u => u ∈ next v) root v := by
  obtain ⟨listed, heq, hext⟩ := postorder_eq_concat hd hnext root
  constructor
  · intro hv
    rw [heq] at hv
    rcases List.mem_append.1 hv with hv | hv
    · obtain ⟨r, hr, hreach⟩ := (hext.reached v hv).resolve_left List.not_mem_nil
      exact .head hr hreach
    · exact List.mem_singleton.1 hv ▸ .refl
  · intro hreach
    have hroot : root ∈ d.postorder next root := by
      rw [heq]; exact List.mem_append_cons_self
    exact (postorder_ordered hd hnext root).mem_of_reflTransGen hroot hreach

/-! ### Walks one after the other

A walk passes by what is listed already. As whatever that leads to is listed
too, it adds what it lists by itself, without what is listed already. -/

/-- A walk from `r` adds to what is listed what it lists by itself and what is not
    listed yet. -/
def Adds (d : Definition) (next : Vertex → List Vertex) (budget : Nat) (r : Vertex) : Prop :=
  ∀ l, Listed d next l → Listed d next (postorderFrom next budget l r) ∧
    postorderFrom next budget l r = l ++ (d.postorder next r).removeAll l

include hd hnext in
theorem foldl_postorderFrom_eq {budget : Nat} {roots listed : List Vertex}
    (hadds : ∀ r ∈ roots, Adds d next budget r) (h : Listed d next listed) :
    roots.foldl (postorderFrom next budget) listed =
      listed ++ (roots.flatMap (d.postorder next)).eraseDups.removeAll listed := by
  induction roots generalizing listed with
  | nil => exact (List.append_nil _).symm
  | cons r roots ih =>
    obtain ⟨hlisted, heq⟩ := hadds r List.mem_cons_self listed h
    have hroots := ih (fun r' hr' => hadds r' (List.mem_cons_of_mem _ hr')) hlisted
    have hown : (d.postorder next r).eraseDups = d.postorder next r :=
      eraseDups_of_nodup (postorder_ordered hd hnext r).nodup
    rw [List.foldl_cons, hroots, heq, removeAll_append_removeAll, List.append_assoc,
      List.flatMap_cons, List.eraseDups_append, hown]
    simp only [List.removeAll, List.filter_append, eraseDups_filter]

include hd hnext in
theorem postorder_eq_of_adds {root : Vertex}
    (hadds : ∀ r ∈ next root, Adds d next d.vertices.length r) :
    d.postorder next root = ((next root).flatMap (d.postorder next)).eraseDups ++ [root] := by
  have hfold := foldl_postorderFrom_eq hd hnext hadds
    ⟨.nil, fun _ hv => absurd hv List.not_mem_nil⟩
  have hroot : d.postorder next root =
      (next root).foldl (postorderFrom next d.vertices.length) [] ++ [root] := rfl
  rw [hroot, hfold, List.removeAll_nil, List.nil_append]

include hd hnext in
/-- All that a listed target leads to is listed. -/
theorem Listed.removeAll_postorder {listed : List Vertex} (h : Listed d next listed) {v : Vertex}
    (hv : v ∈ listed) : (d.postorder next v).removeAll listed = [] := by
  refine List.filter_eq_nil_iff.2 fun w hw => ?_
  have hlisted := h.ordered.mem_of_reflTransGen hv ((mem_postorder_iff hd hnext).1 hw)
  simpa using hlisted

include hd hnext in
theorem adds_of_rank {rank : Vertex → Nat}
    (hlt : ∀ v ∈ d.vertices, rank v < d.vertices.length)
    (hrank : ∀ v ∈ d.vertices, ∀ u, d.Leads v u → rank u < rank v) {budget : Nat} {v : Vertex}
    (hv : v ∈ d.vertices) (hbudget : rank v < budget) : Adds d next budget v := by
  -- The walk by itself has a budget of its own, so the induction is on the rank.
  induction hn : rank v using Nat.strongRecOn generalizing v budget with
  | ind n ih =>
    intro listed h
    refine ⟨(extended_postorderFrom hd hnext hrank hv hbudget h).known, ?_⟩
    have hadds : ∀ {b : Nat}, (∀ r ∈ next v, rank r < b) → ∀ r ∈ next v, Adds d next b r :=
      fun hb r hr =>
        have hr' := hnext v r hr
        ih (rank r) (hn ▸ hrank v hv r hr') hr'.mem (hb r hr) rfl
    cases budget with
    | zero => exact absurd hbudget (Nat.not_lt_zero _)
    | succ budget =>
      rw [postorderFrom]
      split_ifs with hname
      · rw [h.removeAll_postorder hd hnext (h.mem_of_any hd hv hname), List.append_nil]
      · have hlower : ∀ r ∈ next v, rank r < budget := fun r hr =>
          rank_lt_of_leads hrank hv hbudget (hnext v r hr)
        have hlast : [v].removeAll listed = [v] := List.filter_eq_self.2 fun w hw => by
          rw [List.mem_singleton.1 hw]
          simpa using not_mem_of_not_any hname
        rw [foldl_postorderFrom_eq hd hnext (hadds hlower) h,
          postorder_eq_of_adds hd hnext (hadds fun r hr => hlt r (hnext v r hr).mem),
          List.append_assoc]
        simp only [List.removeAll, List.filter_append] at hlast ⊢
        rw [hlast]

include hd hnext in
/-- What a root leads to is listed by one walk after the other, each without what
    has been listed, and then the root. -/
theorem postorder_eq_eraseDups (root : Vertex) :
    d.postorder next root = ((next root).flatMap (d.postorder next)).eraseDups ++ [root] := by
  obtain ⟨rank, hlt, hrank⟩ := hd.ranked
  refine postorder_eq_of_adds hd hnext fun r hr => ?_
  have hr' := (hnext root r hr).mem
  exact adds_of_rank hd hnext hlt hrank hr' (hlt r hr')

/-! ### Targets with a stage -/

/-- The targets with a stage that a walk lists. -/
def staged (d : Definition) (next : Vertex → List Vertex) (root : Vertex) : List Vertex :=
  (d.postorder next root).filter (·.stage.isSome)

include hd hnext in
/-- A root without a stage lists what it leads to, one walk after the other. -/
theorem staged_eq_eraseDups {root : Vertex} (hs : root.stage = none) :
    d.staged next root = ((next root).flatMap (d.staged next)).eraseDups := by
  have hroot : [root].filter (·.stage.isSome) = [] := by
    rw [List.filter_cons_of_neg (by rw [hs]; exact Bool.false_ne_true), List.filter_nil]
  rw [staged, postorder_eq_eraseDups hd hnext, List.filter_append, hroot, List.append_nil,
    ← eraseDups_filter, List.filter_flatMap]
  rfl

section Staged

variable {R : Vertex → Vertex → Prop} (hR : ∀ v u, u ∈ next v ↔ R v u)
  (hleads : ∀ v u, R v u → d.Leads v u) {root v u : Vertex}

include hd hR hleads in
theorem mem_staged_iff : v ∈ d.staged next root ↔ v.stage.isSome ∧ ReflTransGen R root v := by
  obtain rfl : (fun v u => u ∈ next v) = R := by
    funext v u
    exact propext (hR v u)
  rw [staged, List.mem_filter, mem_postorder_iff hd hleads, and_comm]

include hd hR hleads in
/-- They are ordered by the ways between them, also by those through targets
    without a stage. -/
theorem staged_ordered (root : Vertex) :
    Ordered (fun v u => u.stage.isSome = true ∧ TransGen R v u) (d.staged next root) := by
  obtain rfl : (fun v u => u ∈ next v) = R := by
    funext v u
    exact propext (hR v u)
  exact (postorder_ordered hd hleads root).filter _

include hd hR hleads in
theorem mem_of_mem_staged (hroot : d.IsRoot root) (hv : v ∈ d.staged next root) :
    v ∈ d.vertices :=
  let ⟨hs, hreach⟩ := (mem_staged_iff hd hR hleads).1 hv
  hroot.mem_of_reaches (ReflTransGen.mono hleads _ _ hreach) hs

include hd hR hleads in
/-- No two of them have one name, also if the root is an aggregate of no
    definition: it has no stage. -/
theorem staged_names_nodup (hroot : d.IsRoot root) :
    ((d.staged next root).map (·.name)).Nodup :=
  (staged_ordered hd hR hleads root).nodup.map_on fun _ hv _ hu =>
    hd.eq_of_name_eq (mem_of_mem_staged hd hR hleads hroot hv)
      (mem_of_mem_staged hd hR hleads hroot hu)

end Staged

end ContainerBuild.Definition
