import ContainerBuild.Build.Images
import ContainerBuild.Proofs.Definition.Graph

/-!
# What the search for images finds

The search looks at each target once, by its name, and at all that the target
needs. What it knows at any time is that every target it has visited, apart from
those it is still looking at (`opened`), has had all its needs met: the images
are listed and the targets visited (`Discovery.Closed`).

So when it has come back to the root nothing is open, and the images it lists
are the frontend, those that the root and everything it leads to name, and the
bases of the variables (`mem_images_iff`). They are listed once and in this order
(`images_discovered`): images are only ever added at the end.
-/

namespace ContainerBuild

open Relation

/-- A target names an image: its stage starts from it and from no target, or
    copies from it. -/
inductive Vertex.NamesImage (v : Vertex) : String → Prop
  | base {stage : Stage} : v.stage = some stage → v.parent = none → NamesImage v stage.base
  | copy {stage : Stage} {c : Copy} {image : String} :
    v.stage = some stage → c ∈ stage.copies → c.source = some (.image image) → NamesImage v image

namespace Definition

variable {d : Definition} {v u : Vertex} {image : String}

theorem needAt_eq_some {place : Nat} {need : Need} :
    d.needAt place = some need ↔ ∃ u, d.vertices[place]? = some u ∧ .vertex u = need :=
  Option.map_eq_some_iff

/-- A target needs what it leads to and the images that it names. -/
inductive Needs (d : Definition) (v : Vertex) : Need → Prop
  | image {image : String} : v.NamesImage image → Needs d v (.image image)
  | vertex {u : Vertex} : d.Leads v u → Needs d v (.vertex u)

theorem mem_needs {need : Need} : need ∈ d.needs v ↔ d.Needs v need := by
  simp only [needs, List.mem_append, List.mem_filterMap]
  constructor
  · rintro ((h | ⟨c, hc, h⟩) | ⟨place, hplace, h⟩)
    · cases hp : v.parent with
      | some place =>
        simp only [hp, Option.mem_toList, needAt_eq_some] at h
        obtain ⟨u, hu, rfl⟩ := h
        exact .vertex ⟨_, .base hp hu⟩
      | none =>
        simp only [hp, Option.mem_toList, Option.map_eq_some_iff] at h
        obtain ⟨stage, hs, rfl⟩ := h
        exact .image (.base hs hp)
    · cases hs : v.stage with
      | none => simp [hs] at hc
      | some stage =>
        simp only [hs, Option.map_some, Option.getD_some] at hc
        split at h
        · rename_i place hsource
          obtain ⟨u, hu, rfl⟩ := needAt_eq_some.1 h
          exact .vertex ⟨_, .copy hs hc hsource hu⟩
        · rename_i hsource
          cases h
          exact .image (.copy hs hc hsource)
        · cases h
    · obtain ⟨u, hu, rfl⟩ := needAt_eq_some.1 h
      exact .vertex ⟨_, .dependsOn hplace hu⟩
  · intro h
    cases h with
    | image h =>
      cases h with
      | base hs hp => exact .inl (.inl (by simp [hp, hs]))
      | @copy stage c image hs hc hsource =>
        exact .inl (.inr ⟨c, by simpa [hs] using hc, by simp [hsource]⟩)
    | vertex h =>
      obtain ⟨_, h⟩ := h
      cases h with
      | base hp hu =>
        have := needAt_eq_some.2 ⟨_, hu, rfl⟩
        exact .inl (.inl (by simp [hp, this]))
      | @copy _ _ stage c place hs hc hsource hu =>
        refine .inl (.inr ⟨c, by simpa [hs] using hc, ?_⟩)
        rw [hsource]
        exact needAt_eq_some.2 ⟨_, hu, rfl⟩
      | dependsOn hp hu => exact .inr ⟨_, hp, needAt_eq_some.2 ⟨_, hu, rfl⟩⟩

end Definition

namespace Discovery

variable {d : Definition} {s s' s'' : State} {opened : List Vertex}

/-! ### Lists of images -/

theorem mem_add {images : List String} {image x : String} :
    image ∈ add images x ↔ image ∈ images ∨ image ≠ Dockerfile.scratch ∧ image = x := by
  unfold add
  split_ifs with h
  · -- Nothing is added: it is no image, or it is listed.
    refine ⟨.inl, fun hmem => hmem.elim id ?_⟩
    rintro ⟨hne, rfl⟩
    exact List.contains_iff_mem.1 (h.resolve_left hne)
  · rw [List.mem_append, List.mem_singleton]
    refine or_congr_right ⟨?_, And.right⟩
    rintro rfl
    exact ⟨fun heq => h (.inl heq), rfl⟩

theorem prefix_add (images : List String) (x : String) : images <+: add images x := by
  unfold add
  split_ifs with h
  · exact List.prefix_rfl
  · exact List.prefix_append images [x]

theorem mem_foldl_add {images l : List String} {image : String} :
    image ∈ l.foldl add images ↔ image ∈ images ∨ image ≠ Dockerfile.scratch ∧ image ∈ l := by
  induction l generalizing images with
  | nil => simp
  | cons x l ih =>
    rw [List.foldl_cons, ih, mem_add, List.mem_cons, or_assoc, and_or_left]

theorem nodup_add {images : List String} (h : images.Nodup) (x : String) :
    (add images x).Nodup := by
  unfold add
  split_ifs with hx
  · exact h
  · have hfresh : x ∉ images := fun hmem => hx (.inr (List.contains_iff_mem.2 hmem))
    refine List.nodup_append.2 ⟨h, List.pairwise_singleton _ _, fun y hy z hz => ?_⟩
    rintro rfl
    exact hfresh (List.mem_singleton.1 hz ▸ hy)

theorem nodup_foldl_add {images : List String} (h : images.Nodup) (l : List String) :
    (l.foldl add images).Nodup :=
  List.foldlRecOn l add h fun _ hacc x _ => nodup_add hacc x

/-- What is added comes last. -/
theorem foldl_add_eq_append (images l : List String) :
    ∃ more, l.foldl add images = images ++ more ∧ more ⊆ l := by
  induction l generalizing images with
  | nil => exact ⟨[], (List.append_nil _).symm, List.Subset.refl _⟩
  | cons x l ih =>
    obtain ⟨more, heq, hmore⟩ := ih (add images x)
    rw [List.foldl_cons, heq]
    unfold add
    split_ifs
    · exact ⟨more, rfl, fun y hy => List.mem_cons_of_mem _ (hmore hy)⟩
    · exact ⟨x :: more, List.append_assoc .., List.cons_subset_cons _ hmore⟩

/-! ### The search -/

/-- A need is met: the image is listed, unless it is none, or the target
    visited. -/
def State.Meets (s : State) : Need → Prop
  | .image reference => reference = Dockerfile.scratch ∨ reference ∈ s.images
  | .vertex u => u.name ∈ s.visited

/-- All targets visited have had their needs met, apart from the opened ones. -/
def Closed (d : Definition) (opened : List Vertex) (s : State) : Prop :=
  ∀ v ∈ d.vertices, v.name ∈ s.visited → v ∉ opened → ∀ need ∈ d.needs v, s.Meets need

/-- An image that a need leads to. -/
inductive Yields (d : Definition) : Need → String → Prop
  | image {image : String} : Yields d (.image image) image
  | vertex {u v : Vertex} {image : String} :
    ReflTransGen d.Leads u v → v.NamesImage image → Yields d (.vertex u) image

/-- What a need of a target yields, the target or something that it leads to
    names. -/
theorem Yields.exists_reached {need : Need} {v : Vertex} {image : String}
    (h : Yields d need image) (hneed : need ∈ d.needs v) :
    ∃ u, ReflTransGen d.Leads v u ∧ u.NamesImage image := by
  cases h with
  | image =>
    cases Definition.mem_needs.1 hneed with
    | image hnames => exact ⟨v, .refl, hnames⟩
  | @vertex _ u _ hreach hnames =>
    cases Definition.mem_needs.1 hneed with
    | vertex hl => exact ⟨u, .head hl hreach, hnames⟩

/-- What looking at some needs leads to: they are met, and the images that have
    been added are those that they lead to. -/
structure Explored (d : Definition) (opened : List Vertex) (needs : List Need) (s s' : State) :
    Prop where
  visited : s.visited ⊆ s'.visited
  images : s.images <+: s'.images
  closed : Closed d opened s'
  meets : ∀ need ∈ needs, s'.Meets need
  found : ∀ image ∈ s'.images, image ∈ s.images ∨
    image ≠ Dockerfile.scratch ∧ ∃ need ∈ needs, Yields d need image

/-- Looks at a need. -/
def look (d : Definition) (budget : Nat) (s : State) : Need → State
  | .image reference => { s with images := add s.images reference }
  | .vertex u =>
    if s.visited.contains u.name then s
    else walk d budget { s with visited := u.name :: s.visited } u

theorem walk_succ {budget : Nat} {v : Vertex} :
    walk d (budget + 1) s v = (d.needs v).foldl (look d budget) s := by
  rw [walk]
  congr 1

/-- The search lists nothing twice. -/
theorem nodup_walk {budget : Nat} {v : Vertex} (h : s.images.Nodup) :
    (walk d budget s v).images.Nodup := by
  induction budget generalizing s v with
  | zero => exact h
  | succ budget ih =>
    rw [walk_succ]
    refine List.foldlRecOn (motive := fun s : State => s.images.Nodup) _ _ h fun s hs need _ => ?_
    cases need with
    | image reference => exact nodup_add hs reference
    | vertex u =>
      rw [look]
      split_ifs
      · exact hs
      · exact ih hs

theorem State.Meets.mono {need : Need} (h : s.Meets need) (hvisited : s.visited ⊆ s'.visited)
    (himages : s.images <+: s'.images) : s'.Meets need := by
  cases need with
  | image reference => exact h.imp_right fun hmem => himages.subset hmem
  | vertex u => exact hvisited h

namespace Explored

variable {needs needs' : List Need}

theorem refl (h : Closed d opened s) (hneeds : ∀ need ∈ needs, s.Meets need) :
    Explored d opened needs s s :=
  ⟨List.Subset.refl _, List.prefix_rfl, h, hneeds, fun _ => .inl⟩

theorem trans (h : Explored d opened needs s s') (h' : Explored d opened needs' s' s'') :
    Explored d opened (needs ++ needs') s s'' := by
  refine ⟨List.Subset.trans h.visited h'.visited, h.images.trans h'.images, h'.closed,
    fun need hneed => ?_, fun image himage => ?_⟩
  · rcases List.mem_append.1 hneed with hneed | hneed
    · exact (h.meets need hneed).mono h'.visited h'.images
    · exact h'.meets need hneed
  · rcases h'.found image himage with himage | ⟨hne, need, hneed, hyields⟩
    · refine (h.found image himage).imp_right fun ⟨hne, need, hneed, hyields⟩ => ?_
      exact ⟨hne, need, List.mem_append_left _ hneed, hyields⟩
    · exact .inr ⟨hne, need, List.mem_append_right _ hneed, hyields⟩

end Explored

/-- One need after the other. -/
theorem explored_foldl {visit : State → Need → State} {needs : List Need}
    (hvisit : ∀ need ∈ needs, ∀ s, Closed d opened s → Explored d opened [need] s (visit s need))
    (h : Closed d opened s) : Explored d opened needs s (needs.foldl visit s) := by
  induction needs generalizing s with
  | nil => exact .refl h fun _ hneed => absurd hneed List.not_mem_nil
  | cons need needs ih =>
    have hneed := hvisit need List.mem_cons_self s h
    have hneeds := ih (fun n hn => hvisit n (List.mem_cons_of_mem _ hn)) hneed.closed
    exact hneed.trans hneeds

theorem explored_image {budget : Nat} (reference : String) (h : Closed d opened s) :
    Explored d opened [.image reference] s (look d budget s (.image reference)) := by
  have himages : s.images <+: add s.images reference := prefix_add _ _
  refine ⟨List.Subset.refl _, himages, fun v hv hvisited hopened need hneed => ?_,
    fun need hneed => ?_, fun image himage => ?_⟩
  · exact (h v hv hvisited hopened need hneed).mono (List.Subset.refl _) himages
  · rw [List.mem_singleton.1 hneed]
    by_cases hscratch : reference = Dockerfile.scratch
    · exact .inl hscratch
    · exact .inr (mem_add.2 (.inr ⟨hscratch, rfl⟩))
  · refine (mem_add.1 himage).imp_right ?_
    rintro ⟨hne, rfl⟩
    exact ⟨hne, _, List.mem_singleton_self _, .image⟩

/-- Looking at a target visits it, and opens it until all its needs are met. -/
theorem explored_vertex (hd : d.WellFormed) {budget : Nat} {u : Vertex} (hu : u ∈ d.vertices)
    (hwalk : ∀ opened s, Closed d opened s →
      Explored d opened (d.needs u) s (walk d budget s u))
    (h : Closed d opened s) :
    Explored d opened [.vertex u] s (look d budget s (.vertex u)) := by
  rw [look]
  split_ifs with hvisited
  · refine .refl h fun need hneed => ?_
    rw [List.mem_singleton.1 hneed]
    exact List.contains_iff_mem.1 hvisited
  · have hopen : Closed d (u :: opened) { s with visited := u.name :: s.visited } := by
      intro v hv hvisited hopened need hneed
      rcases List.mem_cons.1 hvisited with hname | hvisited
      · exact absurd (hd.eq_of_name_eq hv hu hname ▸ List.mem_cons_self) hopened
      · refine (h v hv hvisited (fun hv' => hopened (List.mem_cons_of_mem _ hv')) need
          hneed).mono (List.subset_cons_self _ _) List.prefix_rfl
    have hexplored := hwalk _ _ hopen
    have hvisited' := hexplored.visited
    refine ⟨fun n hn => hvisited' (List.mem_cons_of_mem _ hn), hexplored.images,
      fun v hv hname hopened need hneed => ?_, fun need hneed => ?_, fun image himage => ?_⟩
    · -- The target need not be open any longer.
      by_cases hvu : v = u
      · exact hexplored.meets need (hvu ▸ hneed)
      · refine hexplored.closed v hv hname (fun hmem => ?_) need hneed
        exact (List.mem_cons.1 hmem).elim hvu hopened
    · rw [List.mem_singleton.1 hneed]
      exact hvisited' List.mem_cons_self
    · refine (hexplored.found image himage).imp_right fun ⟨hne, need, hneed, hyields⟩ => ?_
      obtain ⟨_, hreach, hnames⟩ := hyields.exists_reached hneed
      exact ⟨hne, _, List.mem_singleton_self _, .vertex hreach hnames⟩

/-- The search from a target of the definition. -/
theorem explored_walk (hd : d.WellFormed) {rank : Vertex → Nat}
    (hrank : ∀ v ∈ d.vertices, ∀ u, d.Leads v u → rank u < rank v) {budget : Nat} {v : Vertex}
    (hv : v ∈ d.vertices) (hbudget : rank v < budget) (h : Closed d opened s) :
    Explored d opened (d.needs v) s (walk d budget s v) := by
  induction budget generalizing v opened s with
  | zero => exact absurd hbudget (Nat.not_lt_zero _)
  | succ budget ih =>
    rw [walk_succ]
    refine explored_foldl (fun need hneed s hs => ?_) h
    cases Definition.mem_needs.1 hneed with
    | image => exact explored_image _ hs
    | @vertex u hl =>
      have hlt := Definition.rank_lt_of_leads hrank hv hbudget hl
      exact explored_vertex hd hl.mem (fun _ _ hopen => ih hl.mem hlt hopen) hs

/-- The search from a root, which takes one from the budget and is never
    visited. -/
theorem explored_root (hd : d.WellFormed) (root : Vertex) (images : List String) :
    Explored d [] (d.needs root) { images } (walk d d.depth { images } root) := by
  obtain ⟨rank, hlt, hrank⟩ := hd.ranked
  rw [Definition.depth, walk_succ]
  refine explored_foldl (fun need hneed s hs => ?_) fun _ _ hvisited =>
    absurd hvisited List.not_mem_nil
  cases Definition.mem_needs.1 hneed with
  | image => exact explored_image _ hs
  | @vertex u hl =>
    exact explored_vertex hd hl.mem
      (fun _ _ hopen => explored_walk hd hrank hl.mem (hlt u hl.mem) hopen) hs

/-- In the end the needs of everything that the root leads to are met. -/
theorem Explored.meets_of_reaches {root v : Vertex}
    (h : Explored d [] (d.needs root) s s') (hreach : ReflTransGen d.Leads root v) :
    ∀ need ∈ d.needs v, s'.Meets need := by
  induction hreach with
  | refl => exact h.meets
  | @tail v u _ hl ih =>
    have hvisited : u.name ∈ s'.visited := ih (.vertex u) (Definition.mem_needs.2 (.vertex hl))
    exact h.closed u hl.mem hvisited List.not_mem_nil

end Discovery

namespace Definition

variable {d : Definition} {root : Vertex} {frontend image : String}

/-- What the search from the root finds: the frontend and the images named by
    what the root leads to, but for `scratch`. -/
theorem mem_images_walk_iff (hd : d.WellFormed) :
    image ∈ (Discovery.walk d d.depth { images := Discovery.add [] frontend } root).images ↔
      image ≠ Dockerfile.scratch ∧
        (image = frontend ∨ ∃ v, ReflTransGen d.Leads root v ∧ v.NamesImage image) := by
  have hexplored := Discovery.explored_root hd root (Discovery.add [] frontend)
  constructor
  · intro himage
    rcases hexplored.found image himage with himage | ⟨hne, need, hneed, hyields⟩
    · obtain ⟨hne, rfl⟩ := (Discovery.mem_add.1 himage).resolve_left List.not_mem_nil
      exact ⟨hne, .inl rfl⟩
    · exact ⟨hne, .inr (hyields.exists_reached hneed)⟩
  · rintro ⟨hne, rfl | ⟨v, hreach, hnames⟩⟩
    · exact hexplored.images.subset (Discovery.mem_add.2 (.inr ⟨hne, rfl⟩))
    · have hmet := hexplored.meets_of_reaches hreach _ (mem_needs.2 (.image hnames))
      exact hmet.resolve_left hne

/-- The images found are the frontend, those named by what the root leads to, and
    the bases of the variables, but for `scratch`. -/
theorem mem_images_iff (hd : d.WellFormed) :
    image ∈ d.images root frontend ↔ image ≠ Dockerfile.scratch ∧
      (image = frontend ∨ (∃ v, ReflTransGen d.Leads root v ∧ v.NamesImage image) ∨
        ∃ x ∈ d.vars, x.base = image) := by
  rw [images, Discovery.mem_foldl_add, mem_images_walk_iff hd, List.mem_map, ← and_or_left,
    or_assoc]

end Definition

/-- The images of a build are listed once each: the frontend first, then those
    that are named by what the root leads to, and last those that only variables
    start from. `scratch` is not among them. -/
theorem images_discovered {file : BuildFile} {secrets : List SecretSource} {d : Definition}
    (h : file.resolve secrets = .ok d) (root : Vertex) (frontend : String) :
    (d.images root frontend).Nodup ∧
    (∀ image, image ∈ d.images root frontend ↔ image ≠ Dockerfile.scratch ∧
      (image = frontend ∨ (∃ v, ReflTransGen d.Leads root v ∧ v.NamesImage image) ∨
        ∃ x ∈ d.vars, x.base = image)) ∧
    (frontend ≠ Dockerfile.scratch → (d.images root frontend).head? = some frontend) ∧
    ∃ found more, d.images root frontend = found ++ more ∧
      (∀ image, image ∈ found ↔ image ≠ Dockerfile.scratch ∧
        (image = frontend ∨ ∃ v, ReflTransGen d.Leads root v ∧ v.NamesImage image)) ∧
      ∀ image ∈ more, ∃ x ∈ d.vars, x.base = image := by
  have hd := BuildFile.wellFormed_of_resolve h
  obtain ⟨more, heq, hmore⟩ := Discovery.foldl_add_eq_append
    (Discovery.walk d d.depth { images := Discovery.add [] frontend } root).images
    (d.vars.map (·.base))
  have hnodup : (Discovery.add [] frontend).Nodup := Discovery.nodup_add List.nodup_nil frontend
  refine ⟨Discovery.nodup_foldl_add (Discovery.nodup_walk hnodup) _,
    fun image => Definition.mem_images_iff hd, fun hne => ?_,
    _, more, heq, fun image => Definition.mem_images_walk_iff hd,
    fun image himage => List.mem_map.1 (hmore himage)⟩
  -- The search begins with the frontend listed, and only adds behind.
  have hfirst : Discovery.add [] frontend = [frontend] := if_neg (by simpa using hne)
  obtain ⟨behind, hbehind⟩ := (Discovery.explored_root hd root (Discovery.add [] frontend)).images
  rw [Definition.images, heq, ← hbehind, hfirst]
  rfl

/-- Targets that are reached in several ways, a base that is also one of a
    variable, and a base that only variables have. -/
def gathered : BuildFile where
  apiVersion := BuildFile.supportedVersion
  targets := [
    ("app", .target {
      base := some "base"
      dependsOn := ["tools"]
      copies := .many [{ source := some "tools", src := "/node", dst := "." },
        { source := some "busybox", src := "/bin/sh", dst := "." }] }),
    ("base", .target { base := some "golang" }),
    ("tools", .target { base := some "scratch", dependsOn := ["base"] }),
    ("unused", .target { base := some "postgres" })]
  vars := [
    ("revision", { base := "git", command := "git rev-parse HEAD" }),
    ("node", { base := "golang", command := "go version" }),
    ("tag", { base := "git", command := "git describe" })]

theorem images_discovered_gathered :
    ∃ d root, gathered.resolve [] = .ok d ∧ root = .aggregate "all" [2, 0] ∧ d.IsRoot root ∧
      d.images root "frontend" = ["frontend", "golang", "busybox", "git"] ∧
      (d.images root "frontend").Nodup ∧
      (d.images root "frontend").head? = some "frontend" := by
  let d := Resolution.resolved gathered []
  have h : gathered.resolve [] = .ok d := by rfl
  have hroot : d.IsRoot (.aggregate "all" [2, 0]) := .aggregate (by decide)
  obtain ⟨hnodup, _, hfirst, _⟩ := images_discovered h (.aggregate "all" [2, 0]) "frontend"
  exact ⟨d, _, h, rfl, hroot, by decide, hnodup, hfirst (by decide)⟩

end ContainerBuild
