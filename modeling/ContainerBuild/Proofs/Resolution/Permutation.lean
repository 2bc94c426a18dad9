import ContainerBuild.Proofs.Definition.Renumbering
import ContainerBuild.Proofs.Dockerfile.Stages
import Mathlib.Data.List.Perm.Basic

/-!
# The order of declaration

The targets of a build file may be declared in any order. What is wrong with a
file does not depend on it (`Resolvable.perm`), and files that declare the same
targets in different orders are resolved to definitions that are renumberings of
each other (`renumbering_resolved`). So they have the same images, documents and
plans (`resolve_perm`).
-/

namespace ContainerBuild

/-- A permutation moves every element to a place of its own. -/
theorem exists_places_of_perm {α : Type} [DecidableEq α] {l l' : List α} (h : l.Perm l') :
    ∃ σ : Nat → Nat, Set.BijOn σ (Set.Iio l.length) (Set.Iio l'.length) ∧
      ∀ place, l'[σ place]? = l[place]? := by
  -- Places behind the end, where nothing stands in either list, are kept.
  let σ : Nat → Nat := fun place =>
    if hlt : place < l.length then h.idxBij ⟨place, hlt⟩ else place
  have hσ : ∀ place (hlt : place < l.length), σ place = h.idxBij ⟨place, hlt⟩ :=
    fun place hlt => dif_pos hlt
  refine ⟨σ, ⟨fun place hlt => ?_, fun p hp q hq heq => ?_, fun place hlt => ?_⟩, fun place => ?_⟩
  · rw [hσ place hlt]
    exact (h.idxBij _).isLt
  · rw [hσ p hp, hσ q hq] at heq
    exact Fin.mk.inj (h.idxBij_injective (Fin.ext heq))
  · obtain ⟨p, hp⟩ := h.idxBij_surjective ⟨place, hlt⟩
    refine ⟨p, p.isLt, ?_⟩
    rw [hσ p p.isLt, hp]
  · by_cases hlt : place < l.length
    · rw [hσ place hlt, List.getElem?_eq_getElem hlt, List.getElem?_eq_getElem (h.idxBij _).isLt,
        h.getElem_idxBij_eq_getElem]
    · have hkept : σ place = place := dif_neg hlt
      rw [hkept, List.getElem?_eq_none (not_lt.1 hlt),
        List.getElem?_eq_none (h.length_eq ▸ not_lt.1 hlt)]

namespace BuildFile

variable {file : BuildFile} {targets targets' : List (String × Entry)}
  {secrets : List SecretSource}

/-! ### What is wrong with a file -/

theorem Declares.perm (h : targets.Perm targets') {name : String} (hname : Declares targets name) :
    Declares targets' name :=
  (h.map _).subset hname

theorem Links.perm (h : targets.Perm targets') {edge : Edge} {a b : String}
    (hl : Links targets edge a b) : Links targets' edge a b := by
  cases hl with
  | base hmem hb hd => exact .base (h.subset hmem) hb (hd.perm h)
  | copy hmem hc hb hd => exact .copy (h.subset hmem) hc hb (hd.perm h)
  | dependsOn hmem hb => exact .dependsOn (h.subset hmem) hb

theorem Resolvable.perm (h : file.targets.Perm targets) (hr : file.Resolvable secrets) :
    { file with targets }.Resolvable secrets where
  version := hr.version
  targets_nodup := (h.map _).nodup_iff.1 hr.targets_nodup
  vars_nodup := hr.vars_nodup
  nonempty name entry hmem := hr.nonempty name entry (h.symm.subset hmem)
  base name entry hmem := hr.base name entry (h.symm.subset hmem)
  dependencies name entry hmem target htarget :=
    (hr.dependencies name entry (h.symm.subset hmem) target htarget).perm h
  targetSecrets name entry hmem := hr.targetSecrets name entry (h.symm.subset hmem)
  varSecrets := hr.varSecrets
  acyclic name hcycle := by
    refine hr.acyclic name (Relation.TransGen.mono (fun a b hab => ?_) _ _ hcycle)
    obtain ⟨edge, hl⟩ := hab
    exact ⟨edge, hl.perm h.symm⟩

end BuildFile

namespace Resolution

open BuildFile (Entry)

/-! ### Vertices -/

section

variable {s s' : Scope} {σ : Nat → Nat} (hplace : ∀ name, s'.place? name = (s.place? name).map σ)

include hplace in
theorem resolveCopy_renumber (c : BuildFile.Copy) :
    resolveCopy s' c = (resolveCopy s c).renumber σ := by
  obtain ⟨source, src, dst⟩ := c
  cases source with
  | none => rfl
  | some name =>
    simp only [resolveCopy, Copy.renumber, Option.map_some, hplace]
    cases s.place? name <;> rfl

include hplace in
theorem resolveStage_renumber (t : BuildFile.Target) :
    resolveStage s' t = (resolveStage s t).renumber σ := by
  have hcopies : t.copies.toList.map (resolveCopy s') =
      (t.copies.toList.map (resolveCopy s)).map (·.renumber σ) := by
    rw [List.map_map]
    exact List.map_congr_left fun c _ => resolveCopy_renumber hplace c
  rw [resolveStage, hcopies]
  rfl

include hplace in
theorem resolveEntry_renumber (x : String × Entry) :
    resolveEntry s' x = (resolveEntry s x).renumber σ := by
  have hplaces : ∀ names : List String,
      names.filterMap s'.place? = (names.filterMap s.place?).map σ := fun names => by
    rw [List.map_filterMap]
    exact List.filterMap_congr fun name _ => hplace name
  obtain ⟨name, names | t⟩ := x
  · simp only [resolveEntry, Vertex.renumber, hplaces, Option.map_none]
  · simp only [resolveEntry, Vertex.renumber, hplaces, resolveStage_renumber hplace]
    congr 1
    · cases t.hasStage <;> rfl
    · cases t.hasStage with
      | false => rfl
      | true =>
        cases t.base with
        | none => rfl
        | some base => exact hplace base

end

/-- Files that declare the same targets in different orders are resolved to the
    same definition, but for the numbers. -/
theorem renumbering_resolved {file : BuildFile} {targets : List (String × Entry)}
    (secrets : List SecretSource) (hnodup : (file.targets.map (·.1)).Nodup)
    (h : file.targets.Perm targets) :
    ∃ σ, (resolved file secrets).Renumbering σ (resolved { file with targets } secrets) := by
  obtain ⟨σ, hσ, htargets⟩ := exists_places_of_perm h
  have hplace : ∀ name, ({ file with targets }.scope secrets).place? name =
      ((file.scope secrets).place? name).map σ := fun name => by
    refine findIdx?_eq_map hnodup ((h.map _).nodup_iff.1 hnodup) hσ fun place => ?_
    rw [List.getElem?_map, List.getElem?_map]
    exact congrArg (Option.map Prod.fst) (htargets place)
  have hlength : targets.length = file.targets.length := h.length_eq.symm
  refine ⟨σ, ?_, ?_, fun place => ?_, rfl⟩
  · simpa only [resolved, List.length_map] using hlength
  · simpa only [resolved, List.length_map] using hσ
  · simp only [resolved, List.getElem?_map, htargets, Option.map_map]
    exact congrArg (Option.map · _) (funext (resolveEntry_renumber hplace))

end Resolution

open BuildFile Resolution

/-- Declaring the targets of a file in another order makes no difference to whether
    it is resolved, and to its definition none but the numbers of the targets. A
    request fails in both orders or in neither, and the images found for it, its
    document and its plan are the same. -/
theorem resolve_perm {file : BuildFile} {targets : List (String × Entry)}
    (h : file.targets.Perm targets) (secrets : List SecretSource) :
    ((∃ d, file.resolve secrets = .ok d) ↔ ∃ d, { file with targets }.resolve secrets = .ok d) ∧
    ∀ d d', file.resolve secrets = .ok d → { file with targets }.resolve secrets = .ok d' →
      (∃ σ, d.Renumbering σ d') ∧
      ∀ requested,
        (∀ e, d.root requested = .error e ↔ d'.root requested = .error e) ∧
        ∀ root root', d.root requested = .ok root → d'.root requested = .ok root' →
          (∀ frontend, d.images root frontend = d'.images root' frontend) ∧
          (∀ values frontend, d.document root values frontend = d'.document root' values frontend) ∧
          d.plan root = d'.plan root' := by
  refine ⟨?_, fun d d' hd hd' => ?_⟩
  · have hback : { file with targets }.targets.Perm file.targets := h.symm
    rw [(resolve_iff_resolvable file secrets).1, (resolve_iff_resolvable _ secrets).1]
    exact ⟨.perm h, .perm hback⟩
  · obtain ⟨rfl, hr, _⟩ := (resolve_outcome file secrets).of_ok hd
    obtain ⟨rfl, hr', _⟩ := (resolve_outcome _ secrets).of_ok hd'
    obtain ⟨σ, hσ⟩ := renumbering_resolved secrets hr.targets_nodup h
    refine ⟨⟨σ, hσ⟩, fun requested => ?_⟩
    have hroot := hσ.root_eq (wellFormed_of_resolve hd).nodup (wellFormed_of_resolve hd').nodup
      requested
    refine ⟨fun e => ?_, fun root root' hok hok' => ?_⟩
    · rw [hroot]
      cases (resolved file secrets).root requested <;> simp [Except.map]
    · rw [hroot, hok] at hok'
      obtain rfl := Except.ok.inj hok'
      exact ⟨fun frontend => (hσ.images_eq root frontend).symm,
        fun values frontend => (hσ.document_eq root values frontend).symm, (hσ.plan_eq root).symm⟩

theorem resolve_perm_layered :
    let targets := layered.targets.reverse
    layered.targets.Perm targets ∧
      ∃ d d', layered.resolve [] = .ok d ∧ { layered with targets }.resolve [] = .ok d' ∧ d ≠ d' ∧
        (∃ σ, d.Renumbering σ d') ∧
        ∃ root root', d.root ["gen", "all"] = .ok root ∧ d'.root ["gen", "all"] = .ok root' ∧
          root ≠ root' ∧ d.plan root = d'.plan root' ∧
          d.document root .empty "frontend" = d'.document root' .empty "frontend" := by
  let targets := layered.targets.reverse
  have hperm : layered.targets.Perm targets := (List.reverse_perm _).symm
  let d := Resolution.resolved layered []
  let d' := Resolution.resolved { layered with targets } []
  have hd : layered.resolve [] = .ok d := by rfl
  have hd' : { layered with targets }.resolve [] = .ok d' := by rfl
  have hroot : d.root ["gen", "all"] = .ok (.aggregate "all" [1, 0]) := by rfl
  have hroot' : d'.root ["gen", "all"] = .ok (.aggregate "all" [1, 2]) := by rfl
  obtain ⟨hσ, hrequest⟩ := (resolve_perm hperm []).2 d d' hd hd'
  obtain ⟨_, hdocument, hplan⟩ := (hrequest ["gen", "all"]).2 _ _ hroot hroot'
  exact ⟨hperm, d, d', hd, hd', by decide, hσ, _, _, hroot, hroot', by decide, hplan,
    hdocument .empty "frontend"⟩

end ContainerBuild
