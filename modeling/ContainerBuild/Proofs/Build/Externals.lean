import ContainerBuild.Proofs.Build.Images
import ContainerBuild.Proofs.Build.Script
import ContainerBuild.Proofs.Dockerfile.Labels

/-!
# The images that documents need

A document needs the images that its stages start or copy from, apart from those
names that are names of stages in front (`Document.NeedsImage`). The search for
images goes through the definition and not through its documents, and finds what
the documents need except in two cases (`document_images_found_iff`):

* a stage starts or copies from a target without a stage, whose name the
  document then has as that of an image;
* a variable copies from an image, where only its base is looked for.

What is found is present or has been pulled when the images have been pulled
without an error (`exists_provided_of_pullImages`).
-/

namespace ContainerBuild

open Relation

namespace Dockerfile

/-- A stage names an image or another stage: it starts from it or copies from
    it. -/
inductive Stage.Names (s : Stage) : String → Prop
  | base : Names s s.base
  | copy {name src dst : String} : .copy (some name) src dst ∈ s.instructions → Names s name

/-- A document needs an image: one of its stages names it, and it is not the name
    of a stage in front of that one. -/
def Document.NeedsImage (doc : Document) (image : String) : Prop :=
  image ≠ scratch ∧ ∃ before stage after, doc.stages = before ++ stage :: after ∧
    stage.Names image ∧ ∀ s ∈ before, s.label ≠ some image

end Dockerfile

open Dockerfile (Document Instruction scratch outputStageName)

/-! ### What stages name -/

theorem not_copy_mem_workdirInstructions {directory : String} {source : Option String}
    {src dst : String} :
    .copy source src dst ∉ Dockerfile.workdirInstructions directory := by
  unfold Dockerfile.workdirInstructions
  split_ifs <;> simp

theorem not_copy_mem_envInstructions {entries : List (String × String)} {source : Option String}
    {src dst : String} : .copy source src dst ∉ Dockerfile.envInstructions entries := by
  simp [Dockerfile.envInstructions]

namespace Definition

variable {d : Definition} {root v u : Vertex} {values : VarValues} {image : String}

/-- The copies of a stage are those of the target. -/
theorem copy_mem_instructions {stage : Stage} {source : Option String} {src dst : String}
    (h : .copy source src dst ∈ d.instructions values stage) :
    ∃ c ∈ stage.copies, c.source.map d.sourceName = source := by
  simp only [instructions, List.mem_append, not_copy_mem_workdirInstructions,
    not_copy_mem_envInstructions, false_or] at h
  rcases h with h | h
  · obtain ⟨c, hc, heq⟩ := List.mem_map.1 h
    cases heq
    exact ⟨c, hc, rfl⟩
  · obtain ⟨_, _, heq⟩ := List.mem_map.1 h
    cases heq

/-- What the stage of a target names is an image that the target names, or a
    target that it uses. -/
theorem namesImage_or_uses (hd : d.WellFormed) (hv : v ∈ d.vertices)
    (hplaces : ∀ place ∈ v.references, ∃ u, d.vertices[place]? = some u) {stage : Stage}
    (hs : v.stage = some stage) {own : Dockerfile.Stage} (hbase : own.base = stage.base)
    (hcopies : own.instructions = d.instructions values stage) (h : own.Names image) :
    v.NamesImage image ∨ ∃ u, d.Uses v u ∧ u.name = image := by
  cases h with
  | base =>
    rw [hbase]
    cases hp : v.parent with
    | none => exact .inl (.base hs hp)
    | some place =>
      obtain ⟨u, hu⟩ := hplaces place (by simp [Vertex.references, hp])
      have hl : d.Links .base v u := .base hp hu
      exact .inr ⟨u, .inl hl, (hd.base_eq v hv stage hs u hl).symm⟩
  | copy h =>
    rw [hcopies] at h
    obtain ⟨c, hc, hsource⟩ := copy_mem_instructions h
    obtain ⟨source, hcs, rfl⟩ := Option.map_eq_some_iff.1 hsource
    cases source with
    | image reference => exact .inl (.copy hs hc hcs)
    | vertex place =>
      have hplace : place ∈ v.copyPlaces := mem_copyPlaces.2 ⟨stage, hs, c, hc, hcs⟩
      obtain ⟨u, hu⟩ := hplaces place (by simp [Vertex.references, hplace])
      exact .inr ⟨u, .inr (.copy hs hc hcs hu), by rw [sourceName, nameAt, hu]⟩

/-- What a stage of a target names is known: it is the name of a stage in front,
    or else the stage is the target's own. -/
theorem names_of_stagesOf (hd : d.WellFormed) (hv : v ∈ d.vertices)
    (hplaces : ∀ place ∈ v.references, ∃ u, d.vertices[place]? = some u)
    {front rest : List Dockerfile.Stage} {stage : Dockerfile.Stage}
    (h : d.stagesOf values v = front ++ stage :: rest) (hname : stage.Names image)
    (himage : image ≠ scratch) (hfront : ∀ s ∈ front, s.label ≠ some image) :
    front = [] ∧ (v.NamesImage image ∨ ∃ u, d.Uses v u ∧ u.name = image) := by
  cases hs : v.stage with
  | none => simp [stagesOf, hs] at h
  | some own =>
    simp only [stagesOf, hs] at h
    cases front with
    | nil =>
      obtain ⟨rfl, -⟩ := List.cons.inj h
      exact ⟨rfl, namesImage_or_uses hd hv hplaces hs rfl rfl hname⟩
    | cons first front =>
      -- The stage of the output names nothing but the one in front.
      obtain ⟨rfl, hout⟩ := List.cons.inj h
      have hmem : stage ∈ own.output.toList.map (Output.stage v.name) := by
        rw [hout]; exact List.mem_append_cons_self
      obtain ⟨o, _, rfl⟩ := List.mem_map.1 hmem
      cases hname with
      | base => exact absurd rfl himage
      | copy hcopy =>
        cases List.mem_singleton.1 hcopy
        exact absurd rfl (hfront _ List.mem_cons_self)

end Definition

/-- A stage of some blocks lies in one of them. -/
theorem exists_of_flatMap_eq {α β : Type} {f : α → List β} {l : List α} {front back : List β}
    {b : β} (h : l.flatMap f = front ++ b :: back) :
    ∃ before a after inner rest, l = before ++ a :: after ∧ f a = inner ++ b :: rest ∧
      front = before.flatMap f ++ inner := by
  induction l generalizing front with
  | nil => simp at h
  | cons a l ih =>
    rw [List.flatMap_cons] at h
    obtain ⟨front', rfl, hl⟩ | ⟨inner, hinner, hl⟩ := List.append_eq_append_iff.1 h
    · obtain ⟨before, a', after, inner, rest, rfl, ha', rfl⟩ := ih hl
      exact ⟨a :: before, a', after, inner, rest, rfl, ha', by simp⟩
    · cases inner with
      | nil =>
        have hl : l.flatMap f = [] ++ b :: back := hl.symm
        obtain ⟨before, a', after, inner', rest, rfl, ha', hfront⟩ := ih hl
        refine ⟨a :: before, a', after, inner', rest, rfl, ha', ?_⟩
        rw [List.flatMap_cons, List.append_assoc, ← hfront, hinner, List.append_nil,
          List.append_nil]
      | cons b' inner =>
        obtain ⟨rfl, -⟩ := List.cons.inj hl
        exact ⟨[], a, l, front, inner, rfl, hinner, rfl⟩

namespace Definition

variable {d : Definition} {root : Vertex} {values : VarValues} {image : String}

/-- What the document of a root needs is named by an emitted target, as an image
    or as a target that it uses, and no stage in front bears the name. -/
theorem exists_of_needsImage (hd : d.WellFormed) (hroot : d.IsRoot root)
    (hplaces : ∀ v ∈ d.vertices, ∀ place ∈ v.references, ∃ u, d.vertices[place]? = some u)
    {frontend : String} (h : (d.document root values frontend).NeedsImage image) :
    ∃ before v after, d.emitted root = before ++ v :: after ∧
      (v.NamesImage image ∨ ∃ u, d.Uses v u ∧ u.name = image) ∧
      ∀ s ∈ before.flatMap (d.stagesOf values), s.label ≠ some image := by
  obtain ⟨himage, front, stage, back, hstages, hname, hfront⟩ := h
  rw [document_stages_eq] at hstages
  obtain ⟨before, v, after, inner, rest, horder, hv, rfl⟩ := exists_of_flatMap_eq hstages
  have hmem : v ∈ d.vertices := by
    refine mem_of_mem_emitted hd hroot ?_
    rw [horder]; exact List.mem_append_cons_self
  obtain ⟨-, hnames⟩ := names_of_stagesOf hd hmem (hplaces v hmem) hv hname himage fun s hs =>
    hfront s (List.mem_append_right _ hs)
  exact ⟨before, v, after, horder, hnames, fun s hs => hfront s (List.mem_append_left _ hs)⟩

/-- The document needs what an emitted target uses, if no stage in front bears
    its name. -/
theorem needsImage_of_uses (hd : d.WellFormed) (hroot : d.IsRoot root)
    {before after : List Vertex} {v u : Vertex} (horder : d.emitted root = before ++ v :: after)
    (huse : d.Uses v u) (hscratch : u.name ≠ scratch)
    (hbefore : ∀ s ∈ before.flatMap (d.stagesOf values), s.label ≠ some u.name)
    (frontend : String) : (d.document root values frontend).NeedsImage u.name := by
  have hv : v ∈ d.emitted root := by
    rw [horder]; exact List.mem_append_cons_self
  obtain ⟨own, exported, hstages, -, hbase, hcopy⟩ := exists_own_stage hd
    (mem_of_mem_emitted hd hroot hv) ((mem_emitted_iff hd).1 hv).1 values
  have hnames : own.Names u.name := by
    rcases huse with hl | hl
    · exact hbase u hl ▸ .base
    · obtain ⟨src, dst, hmem⟩ := hcopy u hl
      exact .copy hmem
  refine ⟨hscratch, before.flatMap (d.stagesOf values), own,
    exported ++ after.flatMap (d.stagesOf values), ?_, hnames, hbefore⟩
  rw [document_stages_eq, horder, List.flatMap_append, List.flatMap_cons, hstages,
    List.cons_append]

end Definition

theorem Var.copy_mem_instructions {x : Var} {source : Option String} {src dst : String} :
    .copy source src dst ∈ x.instructions ↔ ⟨source, src, dst⟩ ∈ x.copies := by
  simp only [Var.instructions, List.mem_append, not_copy_mem_workdirInstructions,
    not_copy_mem_envInstructions, false_or, List.mem_map, List.mem_singleton, reduceCtorEq,
    or_false, Instruction.copy.injEq]
  constructor
  · rintro ⟨c, hc, rfl, rfl, rfl⟩
    exact hc
  · exact fun hc => ⟨_, hc, rfl, rfl, rfl⟩

/-- The document of a variable needs its base and what it copies from. -/
theorem Var.needsImage_iff {x : Var} {frontend image : String} :
    (x.document frontend).NeedsImage image ↔
      image ≠ scratch ∧ (image = x.base ∨ ∃ c ∈ x.copies, image ∈ c.source) := by
  refine and_congr_right fun _ => ⟨?_, ?_⟩
  · rintro ⟨before, stage, after, hstages, hname, -⟩
    -- There is no other stage.
    have hstage : stage ∈ (x.document frontend).stages := by
      rw [hstages]; exact List.mem_append_cons_self
    obtain rfl := List.mem_singleton.1 hstage
    cases hname with
    | base => exact .inl rfl
    | copy hcopy => exact .inr ⟨_, Var.copy_mem_instructions.1 hcopy, rfl⟩
  · intro h
    refine ⟨[], _, [], rfl, ?_, fun _ hs => absurd hs List.not_mem_nil⟩
    rcases h with rfl | ⟨⟨source, src, dst⟩, hc, himage⟩
    · exact .base
    · obtain rfl : source = some image := himage
      exact .copy (Var.copy_mem_instructions.2 hc)

/-! ### What has been pulled -/

/-- An image is reported present, or is pulled, by one of the exchanges. -/
inductive Provided {σ : Type} (b : Builder σ) (es : List (Exchange σ)) (image : String) : Prop
  | present {x : Exchange σ} {images present : List String} :
    x ∈ es → x.call = .listImages images → x.reply b = .ok (.present present) →
    image ∈ present → Provided b es image
  | pulled {x : Exchange σ} :
    x ∈ es → x.call = .pullImage image → x.reply b = .ok .done → Provided b es image

/-- When the images have been pulled without an error, each has been provided. -/
theorem exists_provided_of_pullImages {σ : Type} (ctx : BuildContext σ) (images : List String)
    (force : Bool) (p : Progress σ)
    (h : ((pullImages ctx images force).run p).1 = .ok ()) :
    ∃ es, Dialogue ctx p.state es ((pullImages ctx images force).run p).2.state ∧
      ((pullImages ctx images force).run p).2.calls = p.calls ++ es.map (·.call) ∧
      ∀ image ∈ images, Provided ctx.builder es image := by
  obtain ⟨present, es, haccount⟩ := exists_account_pullImages ctx images force p
  refine ⟨es, haccount.dialogue, haccount.calls, fun image himage => ?_⟩
  have hcourse := haccount.course
  rw [h] at hcourse
  cases hcourse with
  | follows hfollows =>
    cases hfollows with
    | completed hmatches =>
      cases force with
      | true =>
        have hmem : (Call.pullImage image, Reply.done) ∈ pullScript images true present :=
          List.mem_map_of_mem himage
        obtain ⟨x, hx, hcall, hreply⟩ := exists_of_mem_right hmatches hmem
        exact .pulled hx hcall hreply
      | false =>
        by_cases hpresent : image ∈ present
        · obtain ⟨x, hx, hcall, hreply⟩ := exists_of_mem_right hmatches List.mem_cons_self
          exact .present hx hcall hreply hpresent
        · have hmem : (Call.pullImage image, Reply.done) ∈ pullScript images false present :=
            List.mem_cons_of_mem _ (List.mem_map_of_mem (List.mem_filter.2 ⟨himage, by simpa⟩))
          obtain ⟨x, hx, hcall, hreply⟩ := exists_of_mem_right hmatches hmem
          exact .pulled hx hcall hreply

/-! ### What is found -/

namespace Definition

variable {d : Definition} {root : Vertex}

/-- The images that the document of a root needs are found, apart from targets
    without a stage that stand for images. -/
theorem target_images_found_iff (hd : d.WellFormed) (hroot : d.IsRoot root)
    (hplaces : ∀ v ∈ d.vertices, ∀ place ∈ v.references, ∃ u, d.vertices[place]? = some u)
    (values : VarValues) (frontend : String) :
    (∀ image, (d.document root values frontend).NeedsImage image →
        image ∈ d.images root frontend) ↔
      ∀ v u, ReflTransGen d.Leads root v → v.stage.isSome → d.Uses v u → u.stage = none →
        u.name = scratch ∨ u.name ∈ d.images root frontend ∨
          ∃ w, w.output.isSome ∧ u.name = outputStageName w.name ∧
            [w, v].Sublist (d.emitted root) := by
  constructor
  · intro hfound v u hv hs huse hu
    by_cases hscratch : u.name = scratch
    · exact .inl hscratch
    refine .inr ?_
    obtain ⟨before, after, horder⟩ := List.append_of_mem ((mem_emitted_iff hd).2 ⟨hs, hv⟩)
    by_cases hlabel : ∃ s ∈ before.flatMap (d.stagesOf values), s.label = some u.name
    · refine .inr (((exists_label_before_iff hd hroot horder huse).1 hlabel).resolve_left ?_)
      rw [hu]
      exact Bool.false_ne_true
    · refine .inl (hfound _ (needsImage_of_uses hd hroot horder huse hscratch ?_ frontend))
      exact fun s hs heq => hlabel ⟨s, hs, heq⟩
  · intro hused image hneeds
    obtain ⟨before, v, after, horder, hnames, hbefore⟩ :=
      exists_of_needsImage hd hroot hplaces hneeds
    have hv : v ∈ d.emitted root := by
      rw [horder]; exact List.mem_append_cons_self
    obtain ⟨hs, hreach⟩ := (mem_emitted_iff hd).1 hv
    rcases hnames with hnames | ⟨u, huse, rfl⟩
    · exact (mem_images_iff hd).2 ⟨hneeds.1, .inr (.inl ⟨v, hreach, hnames⟩)⟩
    · -- If the target had a stage, or an output in front were called like it,
      -- its name would be that of a stage in front.
      have hlabel := mt (exists_label_before_iff hd hroot horder huse).2 fun ⟨s, hs, heq⟩ =>
        hbefore s hs heq
      rw [not_or] at hlabel
      have hu : u.stage = none := by simpa using hlabel.1
      rcases hused v u hreach hs huse hu with hscratch | hfound | houtput
      · exact absurd hscratch hneeds.1
      · exact hfound
      · exact absurd houtput hlabel.2

/-- The images that the document of a variable needs are found, apart from those
    that it copies from. -/
theorem var_images_found_iff (hd : d.WellFormed) {x : Var} (hx : x ∈ d.vars)
    {frontend : String} :
    (∀ image, (x.document frontend).NeedsImage image → image ∈ d.images root frontend) ↔
      ∀ c ∈ x.copies, ∀ image ∈ c.source, image = scratch ∨ image ∈ d.images root frontend := by
  constructor
  · intro hfound c hc image himage
    by_cases hscratch : image = scratch
    · exact .inl hscratch
    · exact .inr (hfound image (Var.needsImage_iff.2 ⟨hscratch, .inr ⟨c, hc, himage⟩⟩))
  · intro hcopied image hneeds
    obtain ⟨hscratch, rfl | ⟨c, hc, himage⟩⟩ := Var.needsImage_iff.1 hneeds
    · exact (mem_images_iff hd).2 ⟨hscratch, .inr (.inr ⟨x, hx, rfl⟩)⟩
    · exact (hcopied c hc image himage).resolve_left hscratch

end Definition

open Definition

/-- All images that the document of a root and those of the variables need are
    found, exactly if this holds of the names of targets without a stage that
    emitted targets use, unless an output in front bears the name, and of what
    variables copy from. Each image that is found is provided before anything is
    built. -/
theorem document_images_found_iff {σ : Type} {file : BuildFile} {secrets : List SecretSource}
    {d : Definition} (h : file.resolve secrets = .ok d) {root : Vertex} (hroot : d.IsRoot root)
    (values : VarValues) (ctx : BuildContext σ) :
    ((∀ image, ((d.document root values ctx.frontend).NeedsImage image ∨
        ∃ x ∈ d.vars, (x.document ctx.frontend).NeedsImage image) →
          image ∈ d.images root ctx.frontend) ↔
      (∀ v u, ReflTransGen d.Leads root v → v.stage.isSome → d.Uses v u → u.stage = none →
        u.name = scratch ∨ u.name ∈ d.images root ctx.frontend ∨
          ∃ w, w.output.isSome ∧ u.name = outputStageName w.name ∧
            [w, v].Sublist (d.emitted root)) ∧
      ∀ x ∈ d.vars, ∀ c ∈ x.copies, ∀ image ∈ c.source,
        image = scratch ∨ image ∈ d.images root ctx.frontend) ∧
    ∀ force p, ((pullImages ctx (d.images root ctx.frontend) force).run p).1 = .ok () →
      ∃ es, Dialogue ctx p.state es
          ((pullImages ctx (d.images root ctx.frontend) force).run p).2.state ∧
        ((pullImages ctx (d.images root ctx.frontend) force).run p).2.calls =
          p.calls ++ es.map (·.call) ∧
        ∀ image ∈ d.images root ctx.frontend, Provided ctx.builder es image := by
  have hd := BuildFile.wellFormed_of_resolve h
  have htarget :=
    target_images_found_iff hd hroot (BuildFile.places_of_resolve h) values ctx.frontend
  refine ⟨⟨fun hfound => ⟨?_, fun x hx => ?_⟩, ?_⟩, exists_provided_of_pullImages ctx _⟩
  · exact htarget.1 fun image hneeds => hfound image (.inl hneeds)
  · exact (var_images_found_iff hd hx).1 fun image hneeds => hfound image (.inr ⟨x, hx, hneeds⟩)
  · rintro ⟨hused, hcopied⟩ image (hneeds | ⟨x, hx, hneeds⟩)
    · exact htarget.2 hused image hneeds
    · exact (var_images_found_iff hd hx).2 (hcopied x hx) image hneeds

/-- A variable that copies from an image which is the base of a target too. -/
def sourced : BuildFile where
  apiVersion := BuildFile.supportedVersion
  targets := [
    ("app", .target { base := some "golang", copies := .one ⟨some "tools", "/bin", "/"⟩ }),
    ("tools", .target { base := some "busybox" })]
  vars := [("VERSION", {
    base := "git", copies := .one ⟨some "busybox", "/bin", "/"⟩, command := "git describe" })]

/-- A builder that has one of the images. -/
def stocked : BuildContext Unit where
  builder := {
    listImages := fun _ s => (.ok ["golang"], s)
    pullImage := fun _ s => (.ok (), s)
    value := fun _ _ s => (.ok "v1", s)
    build := fun _ _ s => (.ok (), s)
    clearCache := fun _ s => (.ok (), s) }
  cancelled _ := false
  report _ s := s
  frontend := "frontend"

theorem document_images_found_sourced :
    ∃ d root es, sourced.resolve [] = .ok d ∧ d.IsRoot root ∧
      d.images root stocked.frontend = ["frontend", "golang", "busybox", "git"] ∧
      (∀ image, ((d.document root .empty stocked.frontend).NeedsImage image ∨
        ∃ x ∈ d.vars, (x.document stocked.frontend).NeedsImage image) →
          image ∈ d.images root stocked.frontend) ∧
      ∀ image ∈ d.images root stocked.frontend, Provided stocked.builder es image := by
  let d := Resolution.resolved sourced []
  have h : sourced.resolve [] = .ok d := by rfl
  have hroot : d.IsRoot d.vertices[0] := .target (List.getElem_mem _)
  have hstage : ∀ u ∈ d.vertices, u.stage ≠ none := by decide
  obtain ⟨hfound, hpulled⟩ := document_images_found_iff h hroot .empty stocked
  obtain ⟨es, -, -, hprovided⟩ := hpulled false { state := () } (by rfl)
  refine ⟨d, _, es, h, hroot, by decide, hfound.2 ⟨?_, by decide⟩, hprovided⟩
  exact fun v u _ _ huse hu => absurd hu (hstage u huse.leads.mem)

/-- A variable that copies from an image. -/
def unsourced : BuildFile where
  apiVersion := BuildFile.supportedVersion
  targets := [("app", .target { base := some "alpine" })]
  vars := [("VERSION", {
    base := "alpine", copies := .one ⟨some "busybox", "/a", "/b"⟩, command := "cat /b" })]

theorem not_images_found_unsourced :
    ∃ d root x, unsourced.resolve [] = .ok d ∧ d.root ["app"] = .ok root ∧ x ∈ d.vars ∧
      (x.document "frontend").NeedsImage "busybox" ∧ "busybox" ∉ d.images root "frontend" := by
  let d := Resolution.resolved unsourced []
  refine ⟨d, d.vertices[0], d.vars[0], by rfl, by rfl, by decide, ?_, by decide⟩
  exact Var.needsImage_iff.2 ⟨by decide, .inr ⟨_, List.mem_singleton_self _, rfl⟩⟩

end ContainerBuild
