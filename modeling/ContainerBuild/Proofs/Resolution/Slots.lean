import ContainerBuild.Proofs.Definition.Renumbering
import ContainerBuild.Proofs.Resolution.Cycles
import ContainerBuild.Proofs.Resolution.Represented

/-!
# The search in one pass

Targets can be checked and replaced by their vertices in one pass. Such a search
has a *slot* for every target, which holds its vertex once the target has been
resolved, and a trace that is the way to the target at hand. An edge is put on the
trace before the target behind it is visited, and taken off afterwards.

* Whatever a visit comes to, it ends with the trace that it began with and keeps
  what slots have been filled with (`extends_visit`).
* A search goes as the check of the targets does (`Mirrors`): its slots are those of
  the checked targets (`slotsOf`), and what is known of a way when a target is
  reached makes the visit of it `Sound`.

So the search in one pass gives what checking first and replacing names afterwards
gives, and it comes to targets only by ways without repetitions (`visits_sound`).
-/

namespace ContainerBuild

namespace Resolution

open BuildFile (Declares Walk)

/-- The visit of a target, with what the search has found when it comes there. -/
structure Visit where
  place : Nat
  /-- How many more targets there may be on the way. -/
  budget : Nat
  trace : Trace
  slots : List (Option Vertex)
  deriving Repr, DecidableEq

/-- How far a search is. -/
structure Search where
  trace : Trace := []
  /-- The vertices of the targets that have been resolved, each at its place. -/
  slots : List (Option Vertex)
  /-- All visits so far. -/
  visits : List Visit := []
  deriving Repr, DecidableEq

/-- A part of a search. -/
abbrev SearchM := ExceptT Error (StateM Search)

/-- The vertex in the slot of a place. -/
def slotAt (slots : List (Option Vertex)) (place : Nat) : Option Vertex :=
  slots[place]?.join

namespace Search

/-- A search that has come to a place. -/
def entered (st : Search) (budget place : Nat) : Search :=
  { st with visits := st.visits ++ [⟨place, budget, st.trace, st.slots⟩] }

/-- A search with a step put on its trace. -/
def pushed (st : Search) (step : Step) : Search :=
  { st with trace := st.trace ++ [step] }

/-- A search with the last step taken off its trace. -/
def popped (st : Search) : Search :=
  { st with trace := st.trace.dropLast }

/-- A search with a slot filled. -/
def filled (st : Search) (place : Nat) (v : Vertex) : Search :=
  { st with slots := st.slots.set place (some v) }

end Search

/-- Ends a search if a check fails. -/
def ensure (check : Except Error Unit) : SearchM Unit :=
  ExceptT.mk fun st => (check, st)

/-- Does something with a step on the trace, which is taken off again however that ends. -/
def along (step : Step) (m : SearchM Unit) : SearchM Unit :=
  ExceptT.mk fun st =>
    let (result, st) := m.run (st.pushed step)
    (result, st.popped)

/-- Follows an edge of a target, if there is a target behind it to go to. -/
def followBy (s : Scope) (go : Nat → SearchM Unit) (name : String) (e : Edge × String) :
    SearchM Unit :=
  match s.place? e.2 with
  | none => ensure (.error (.unknownDependency name e.2))
  | some place => along ⟨name, e.1⟩ (go place)

/-- Resolves the target at a place after all that it refers to. -/
def resolveBy (s : Scope) (go : Nat → SearchM Unit) (place : Nat)
    (target : String × BuildFile.Entry) : SearchM Unit := do
  ensure (checkBefore target.1 target.2)
  (edges s target.2).forM (followBy s go target.1)
  ensure (checkAfter s target.1 target.2)
  modify (·.filled place (resolveEntry s target))

/-- Visits a place, to resolve the target there unless its slot has been filled. The budget is
    never used up, so it does not matter what happens then. -/
def visit (s : Scope) : (budget place : Nat) → SearchM Unit
  | 0, place => modify (·.entered 0 place)
  | budget + 1, place => do
    modify (·.entered (budget + 1) place)
    let st ← get
    match s.targets[place]? with
    | none => return ()
    | some target =>
      if (slotAt st.slots place).isSome then return ()
      else if st.trace.visits target.1 then ensure (.error (.dependencyCycle target.1 st.trace))
      else resolveBy s (visit s budget) place target

/-- Visits the places of all targets, in declared order. -/
def visitAll (s : Scope) (budget : Nat) : SearchM Unit :=
  s.targets.zipIdx.forM fun (_, place) => visit s budget place

/-- A search that has not come to any place. -/
def Search.start (s : Scope) : Search where
  slots := s.targets.map fun _ => none

variable {s : Scope} {go : Nat → SearchM Unit} {m k : SearchM Unit} {budget place : Nat}
  {target : String × BuildFile.Entry} {st st' st'' : Search}

/-! ### Runs -/

theorem run_along {step : Step} : (along step m).run st =
    ((m.run (st.pushed step)).1, (m.run (st.pushed step)).2.popped) := rfl

theorem run_visit_of_none (h : s.targets[place]? = none) :
    (visit s (budget + 1) place).run st = (.ok (), st.entered (budget + 1) place) := by
  rw [visit, h]
  rfl

theorem run_visit_of_some (h : s.targets[place]? = some target) :
    (visit s (budget + 1) place).run st =
      (if (slotAt st.slots place).isSome then return ()
        else if st.trace.visits target.1 then ensure (.error (.dependencyCycle target.1 st.trace))
        else resolveBy s (visit s budget) place target).run (st.entered (budget + 1) place) := by
  rw [visit, h]
  rfl

/-! ### What a search keeps -/

/-- A search goes on with the same trace and, if slots have been filled, with the same vertices
    in them. -/
structure Search.Extends (st st' : Search) : Prop where
  trace_eq : st'.trace = st.trace
  slotAt_eq : ∀ {place u}, slotAt st.slots place = some u → slotAt st'.slots place = some u

namespace Search.Extends

theorem refl (st : Search) : st.Extends st := ⟨rfl, id⟩

theorem trans (h : st.Extends st') (h' : st'.Extends st'') : st.Extends st'' :=
  ⟨h'.trace_eq.trans h.trace_eq, fun hu => h'.slotAt_eq (h.slotAt_eq hu)⟩

theorem entered (st : Search) (budget place : Nat) : st.Extends (st.entered budget place) :=
  ⟨rfl, id⟩

theorem bind (h : st.Extends (m.run st').2)
    (hm : ∀ st₁, st.Extends st₁ → st.Extends (k.run st₁).2) :
    st.Extends ((m >>= fun _ => k).run st').2 := by
  rw [run_bind]
  rcases hrun : m.run st' with ⟨e | _, st₁⟩
  · rw [hrun] at h
    exact h
  · rw [hrun] at h
    exact hm st₁ h

/-- A step is taken off the trace that it was put on. -/
theorem along {step : Step} (h : ∀ st : Search, st.Extends (m.run st).2) :
    st.Extends ((along step m).run st).2 := by
  have hpushed := h (st.pushed step)
  rw [run_along]
  refine ⟨?_, hpushed.slotAt_eq⟩
  change (m.run (st.pushed step)).2.trace.dropLast = st.trace
  rw [hpushed.trace_eq]
  exact List.dropLast_concat

theorem followBy {name : String} {e : Edge × String}
    (h : ∀ place, ∀ st : Search, st.Extends ((go place).run st).2) :
    st.Extends ((followBy s go name e).run st).2 := by
  unfold Resolution.followBy
  cases s.place? e.2 with
  | none => exact .refl st
  | some place => exact .along (h place)

theorem forM {α : Type} {f : α → SearchM Unit} (h : ∀ a, ∀ st : Search, st.Extends ((f a).run st).2)
    (l : List α) (st : Search) : st.Extends ((l.forM f).run st).2 := by
  induction l generalizing st with
  | nil => exact .refl st
  | cons a l ih => exact .bind (k := l.forM f) (h a st) fun st' hst' => hst'.trans (ih st')

/-- Filling a slot that was empty changes none that had been filled. -/
theorem filled {v : Vertex} (h : st.Extends st') (hplace : slotAt st.slots place = none) :
    st.Extends (st'.filled place v) := by
  refine ⟨h.trace_eq, fun {other u} hu => ?_⟩
  have hne : place ≠ other := by
    rintro rfl
    cases hplace.symm.trans hu
  change slotAt (st'.slots.set place (some v)) other = some u
  rw [slotAt, List.getElem?_set_ne hne]
  exact h.slotAt_eq hu

theorem resolveBy (hgo : ∀ place, ∀ st : Search, st.Extends ((go place).run st).2)
    (h : st.Extends st') (hplace : slotAt st.slots place = none) :
    st.Extends ((resolveBy s go place target).run st').2 := by
  refine .bind h fun st₁ h₁ => ?_
  refine .bind (h₁.trans (.forM (fun _ _ => .followBy hgo) _ _)) fun st₂ h₂ => ?_
  exact .bind h₂ fun st₃ h₃ => h₃.filled hplace

end Search.Extends

/-- A visit ends with the trace that it began with, and only fills slots that were empty. -/
theorem extends_visit (s : Scope) (budget place : Nat) (st : Search) :
    st.Extends ((visit s budget place).run st).2 := by
  induction budget generalizing place st with
  | zero => exact .entered st 0 place
  | succ budget ih =>
    have hentered := Search.Extends.entered st (budget + 1) place
    cases htarget : s.targets[place]? with
    | none =>
      rw [run_visit_of_none htarget]
      exact hentered
    | some target =>
      rw [run_visit_of_some htarget]
      split_ifs with hfilled hvisits
      · exact hentered
      · exact hentered
      · exact hentered.resolveBy ih (by simpa using hfilled)

/-! ### Slots of checked targets -/

/-- The slots, when some targets have been checked. -/
def slotsOf (s : Scope) (checked : List String) : List (Option Vertex) :=
  s.targets.map fun target => if target.1 ∈ checked then some (resolveEntry s target) else none

variable {checked checked' : List String} {name : String} {u : Vertex}

theorem slotAt_slotsOf (h : s.targets[place]? = some target) :
    slotAt (slotsOf s checked) place =
      if target.1 ∈ checked then some (resolveEntry s target) else none := by
  rw [slotAt, slotsOf, List.getElem?_map, h]
  rfl

theorem exists_of_slotAt (h : slotAt (slotsOf s checked) place = some u) :
    ∃ target, s.targets[place]? = some target ∧ target.1 ∈ checked ∧ u = resolveEntry s target := by
  cases htarget : s.targets[place]? with
  | none =>
    rw [slotAt, slotsOf, List.getElem?_map, htarget] at h
    cases h
  | some target =>
    rw [slotAt_slotsOf htarget] at h
    split_ifs at h with hchecked
    exact ⟨target, rfl, hchecked, (Option.some.inj h).symm⟩

/-- The place of a name is that of the target of that name. -/
theorem place?_eq_some_iff (hd : (s.targets.map (·.1)).Nodup) :
    s.place? name = some place ↔ ∃ entry, s.targets[place]? = some (name, entry) := by
  rw [Scope.place?, findIdx?_eq_some_iff_of_nodup hd, List.getElem?_map, Option.map_eq_some_iff]
  constructor
  · rintro ⟨⟨_, entry⟩, h, rfl⟩
    exact ⟨entry, h⟩
  · rintro ⟨entry, h⟩
    exact ⟨_, h, rfl⟩

theorem place?_of_getElem? (hd : (s.targets.map (·.1)).Nodup)
    (h : s.targets[place]? = some target) : s.place? target.1 = some place :=
  (place?_eq_some_iff hd).2 ⟨target.2, h⟩

/-- The slot of a target is filled when it has been checked. -/
theorem slotsOf_cons (hd : (s.targets.map (·.1)).Nodup) (h : s.targets[place]? = some target) :
    slotsOf s (target.1 :: checked) =
      (slotsOf s checked).set place (some (resolveEntry s target)) := by
  refine List.ext_getElem? fun other => ?_
  rw [List.getElem?_set, slotsOf, slotsOf, List.getElem?_map, List.getElem?_map, List.length_map]
  split_ifs with hplace hlt
  · rw [← hplace, h, Option.map_some, if_pos List.mem_cons_self]
  · exact absurd (List.getElem?_eq_some_iff.1 h).1 hlt
  · cases hother : s.targets[other]? with
    | none => rfl
    | some target' =>
      -- Another target has another name.
      have hne : target'.1 ≠ target.1 := fun heq => hplace <| Option.some.inj <|
        (place?_of_getElem? hd h).symm.trans (heq ▸ place?_of_getElem? hd hother)
      simp only [Option.map_some, List.mem_cons, hne, false_or]

/-- What the vertex of a target refers to is behind an edge of the target. -/
theorem exists_edge_of_mem_references (h : place ∈ (resolveEntry s target).references) :
    ∃ e ∈ edges s target.2, s.place? e.2 = some place := by
  obtain ⟨name, entry⟩ := target
  have hdeclares : ∀ {n}, s.place? n = some place → Declares s.targets n := fun hn => by
    by_contra hundeclared
    cases (place?_eq_none_iff.2 hundeclared).symm.trans hn
  simp only [mem_edges, Prod.exists]
  rw [resolveEntry_toTarget] at h
  generalize entry.toTarget = t at h ⊢
  simp only [Vertex.references, resolveEntry, List.mem_append, Option.mem_toList,
    Definition.mem_copyPlaces] at h
  rcases h with (hparent | ⟨stage, hstage, c, hc, hsource⟩) | hdependency
  -- The place is that of the base, of the source of a copy, or of a dependency.
  · split_ifs at hparent
    obtain ⟨b, hb, hplace⟩ := Option.bind_eq_some_iff.1 hparent
    exact ⟨_, b, .inl ⟨rfl, hb, hdeclares hplace⟩, hplace⟩
  · split_ifs at hstage
    obtain rfl := Option.some.inj hstage
    obtain ⟨written, hwritten, rfl⟩ := List.mem_map.1 hc
    obtain ⟨b, hb, hvertex⟩ := Option.map_eq_some_iff.1 hsource
    cases hplace : s.place? b with
    | none =>
      rw [hplace] at hvertex
      cases hvertex
    | some p =>
      rw [hplace] at hvertex
      cases hvertex
      exact ⟨_, b, .inr (.inl ⟨rfl, ⟨written, hwritten, hb⟩, hdeclares hplace⟩), hplace⟩
  · obtain ⟨b, hb, hplace⟩ := List.mem_filterMap.1 hdependency
    exact ⟨_, b, .inr (.inr ⟨rfl, hb⟩), hplace⟩

/-! ### Visits -/

/-- What is known when a place is visited. -/
structure Visit.Sound (s : Scope) (v : Visit) : Prop where
  nodup : (v.trace.map (·.target)).Nodup
  /-- Each target on the trace declares the recorded edge to the next one, and the last one to
      the target that is visited. -/
  walk : ∃ target first, s.targets[v.place]? = some target ∧
    Walk s.targets first v.trace target.1
  unresolved : ∀ step ∈ v.trace, ∃ (place : Nat) (entry : BuildFile.Entry),
    s.targets[place]? = some (step.target, entry) ∧ v.slots[place]? = some none
  slots_eq : ∀ place u, slotAt v.slots place = some u →
    ∃ target, s.targets[place]? = some target ∧ u = resolveEntry s target
  closed : ∀ place u, slotAt v.slots place = some u →
    ∀ other ∈ u.references, ∃ u', slotAt v.slots other = some u'
  length_le : v.trace.length ≤ s.targets.length

/-- Vertices of checked targets refer to vertices of checked targets. -/
theorem Checked.closed (hd : (s.targets.map (·.1)).Nodup) (h : Checked s checked)
    (hu : slotAt (slotsOf s checked) place = some u) {other : Nat} (hother : other ∈ u.references) :
    ∃ u', slotAt (slotsOf s checked) other = some u' := by
  obtain ⟨⟨name, entry⟩, htarget, hname, rfl⟩ := exists_of_slotAt hu
  obtain ⟨⟨edge, b⟩, he, hplace⟩ := exists_edge_of_mem_references hother
  have hlink := links_iff_mem_edges.2 ⟨entry, List.mem_of_getElem? htarget, he⟩
  have hb : b ∈ checked := h.mem_of_reaches hname (.single ⟨edge, hlink⟩)
  obtain ⟨next, hnext⟩ := (place?_eq_some_iff hd).1 hplace
  exact ⟨_, (slotAt_slotsOf hnext).trans (if_pos hb)⟩

theorem Reached.sound (hd : (s.targets.map (·.1)).Nodup) {trace : Trace}
    (h : Reached s trace checked target.1) (htarget : s.targets[place]? = some target) :
    Visit.Sound s ⟨place, budget, trace, slotsOf s checked⟩ where
  nodup := h.way.nodup
  walk := by
    obtain ⟨first, hwalk⟩ := h.way.exists_walk
    exact ⟨target, first, htarget, hwalk⟩
  unresolved := by
    intro step hstep
    obtain ⟨entry, hmem⟩ := (h.way.declares _ (List.mem_map_of_mem hstep)).exists_mem
    obtain ⟨place, hplace⟩ := List.getElem?_of_mem hmem
    -- Nothing on the way has been checked.
    have hunchecked : step.target ∉ checked := fun hchecked => by
      have hvisits := visits_iff.2 (List.mem_map_of_mem hstep)
      cases hvisits.symm.trans (h.apart _ hchecked)
    refine ⟨place, entry, hplace, ?_⟩
    change (slotsOf s checked)[place]? = some none
    rw [slotsOf, List.getElem?_map, hplace, Option.map_some, if_neg hunchecked]
  slots_eq := by
    intro place u hu
    obtain ⟨target, htarget, _, hu⟩ := exists_of_slotAt hu
    exact ⟨target, htarget, hu⟩
  closed _ _ hu _ hother := h.known.closed hd hu hother
  length_le := h.way.length_le

/-- A search stands at a trace, with the slots of some targets filled. -/
structure Search.Stands (s : Scope) (trace : Trace) (checked : List String) (st : Search) :
    Prop where
  trace_eq : st.trace = trace
  slots_eq : st.slots = slotsOf s checked

/-- A part of a search goes as a check does: it ends as the check ends, and if that goes well, with
    the slots of the checked targets filled. All its visits are sound, and as much budget is left
    for each of them as steps are not on its trace. -/
structure Mirrors (s : Scope) (total : Nat) (m : SearchM Unit) (x : Except Error (List String))
    (st : Search) : Prop where
  result : (m.run st).1 = x.map fun _ => ()
  stands : ∀ checked, x = .ok checked → (m.run st).2.Stands s st.trace checked
  visits : ∀ v ∈ (m.run st).2.visits,
    v ∈ st.visits ∨ v.Sound s ∧ v.budget + v.trace.length = total

namespace Mirrors

variable {total : Nat} {x : Except Error (List String)} {trace : Trace}

theorem ok (h : st.Stands s st.trace checked) : Mirrors s total (pure ()) (.ok checked) st where
  result := rfl
  stands := by
    rintro _ ⟨⟩
    exact h
  visits _ hv := .inl hv

theorem error (e : Error) : Mirrors s total (ensure (.error e)) (.error e) st where
  result := rfl
  stands _ h := nomatch h
  visits _ hv := .inl hv

theorem bind {f : List String → Except Error (List String)} (h : Mirrors s total m x st)
    (hm : ∀ checked st', x = .ok checked → st'.Stands s st.trace checked →
      Mirrors s total k (f checked) st') :
    Mirrors s total (m >>= fun _ => k) (x >>= f) st := by
  obtain ⟨hresult, hstands, hvisits⟩ := h
  rcases hrun : m.run st with ⟨result, st'⟩
  rw [hrun] at hresult hstands hvisits
  obtain rfl : result = x.map fun _ => () := hresult
  cases x with
  | error e =>
    -- The second part is not come to.
    have hbind : (m >>= fun _ => k).run st = (.error e, st') := by
      rw [run_bind, hrun]
      rfl
    refine ⟨by rw [hbind]; rfl, fun _ h => (nomatch h), ?_⟩
    rw [hbind]
    exact hvisits
  | ok checked =>
    have hbind : (m >>= fun _ => k).run st = k.run st' := by
      rw [run_bind, hrun]
      rfl
    have hst' := hstands checked rfl
    obtain ⟨hresult', hstands', hvisits'⟩ := hm checked st' rfl hst'
    rw [hst'.trace_eq] at hstands'
    refine ⟨by rw [hbind]; exact hresult', by rw [hbind]; exact hstands', ?_⟩
    rw [hbind]
    exact fun v hv => (hvisits' v hv).elim (hvisits v) .inr

theorem ensure {check : Except Error Unit} (h : check = .ok () → Mirrors s total m x st) :
    Mirrors s total (ensure check >>= fun _ => m) (check >>= fun _ => x) st := by
  cases check with
  | error e => exact error e
  | ok _ => exact h rfl

/-- A step on the trace is taken off again. -/
theorem along {step : Step} (h : Mirrors s total m x (st.pushed step)) :
    Mirrors s total (along step m) x st where
  result := h.result
  stands checked hx := by
    obtain ⟨htrace, hslots⟩ := h.stands checked hx
    refine ⟨?_, hslots⟩
    change (m.run (st.pushed step)).2.trace.dropLast = st.trace
    rw [htrace]
    exact List.dropLast_concat
  visits := h.visits

/-- One part after the other, for the elements of a list, with an invariant of what has been
    checked along them. -/
theorem foldlM {α : Type} {f : α → SearchM Unit} {g : List String → α → Except Error (List String)}
    {l : List α} {I : List α → List String → Prop} (hst : st.Stands s st.trace checked)
    (hI : I [] checked)
    (step : ∀ done a rest checked st', l = done ++ a :: rest → I done checked →
      st'.Stands s st.trace checked → Mirrors s total (f a) (g checked a) st' ∧
        ∀ checked', g checked a = .ok checked' → I (done ++ [a]) checked') :
    Mirrors s total (l.forM f) (l.foldlM g checked) st := by
  suffices key : ∀ rest done checked st', l = done ++ rest → I done checked →
      st'.Stands s st.trace checked → Mirrors s total (rest.forM f) (rest.foldlM g checked) st' from
    key l [] checked st rfl hI hst
  intro rest
  induction rest with
  | nil =>
    intro done checked st' _ _ hst'
    exact ok (hst'.trace_eq.symm ▸ hst')
  | cons a rest ih =>
    intro done checked st' hl hdone hst'
    obtain ⟨hfirst, hkept⟩ := step done a rest checked st' hl hdone hst'
    rw [List.foldlM_cons]
    refine hfirst.bind (k := rest.forM f) fun checked' st'' hg hst'' => ?_
    refine ih (done ++ [a]) checked' st'' ?_ (hkept checked' hg) (hst'.trace_eq ▸ hst'')
    rw [hl, List.append_assoc, List.singleton_append]

theorem followBy (hd : (s.targets.map (·.1)).Nodup) {name : String} {e : Edge × String}
    (hgo : ∀ place next, s.targets[place]? = some (e.2, next) →
      Mirrors s total (go place) (check s budget (st.trace ++ [⟨name, e.1⟩]) checked (e.2, next))
        (st.pushed ⟨name, e.1⟩)) :
    Mirrors s total (followBy s go name e) (follow s budget st.trace name checked e) st := by
  unfold Resolution.followBy follow
  cases hplace : s.place? e.2 with
  | none =>
    rw [lookup_eq_none_iff.2 (place?_eq_none_iff.1 hplace)]
    exact error _
  | some place =>
    obtain ⟨next, hnext⟩ := (place?_eq_some_iff hd).1 hplace
    have hmem := List.mem_of_getElem? hnext
    cases hlookup : s.targets.lookup e.2 with
    | none => exact absurd (BuildFile.declares_of_mem hmem) (lookup_eq_none_iff.1 hlookup)
    | some next' =>
      obtain rfl := BuildFile.entry_unique hd hmem (mem_of_lookup hlookup)
      exact along (hgo place next hnext)

theorem filled (hd : (s.targets.map (·.1)).Nodup) (htarget : s.targets[place]? = some target)
    (hst : st.Stands s st.trace checked) :
    Mirrors s total (modify (·.filled place (resolveEntry s target))) (.ok (target.1 :: checked))
      st where
  result := rfl
  stands := by
    rintro _ ⟨⟩
    refine ⟨rfl, ?_⟩
    change st.slots.set place _ = _
    rw [hst.slots_eq, slotsOf_cons hd htarget]
  visits _ hv := .inl hv

/-- A visit that is sound itself. -/
theorem visit (htarget : s.targets[place]? = some target)
    (hsound : Visit.Sound s ⟨place, budget + 1, st.trace, st.slots⟩)
    (htotal : budget + 1 + st.trace.length = total)
    (h : Mirrors s total
      (if (slotAt st.slots place).isSome then return ()
        else if st.trace.visits target.1 then
          Resolution.ensure (.error (.dependencyCycle target.1 st.trace))
        else resolveBy s (visit s budget) place target)
      x (st.entered (budget + 1) place)) :
    Mirrors s total (visit s (budget + 1) place) x st := by
  obtain ⟨hresult, hstands, hvisits⟩ := h
  rw [← run_visit_of_some htarget] at hresult hstands hvisits
  refine ⟨hresult, hstands, fun v hv => ?_⟩
  obtain hv | hv := hvisits v hv
  · rcases List.mem_append.1 hv with hv | hv
    · exact .inl hv
    · obtain rfl := List.mem_singleton.1 hv
      exact .inr ⟨hsound, htotal⟩
  · exact .inr hv

end Mirrors

/-- The edges of a target are followed as its check follows them, if the targets behind them are
    visited as they are checked. -/
theorem mirrors_edges (hd : (s.targets.map (·.1)).Nodup) {budget' total : Nat} {trace : Trace}
    (hgo : ∀ (st' : Search) checked place target, st'.trace.length = trace.length + 1 →
      s.targets[place]? = some target → Reached s st'.trace checked target.1 →
      st'.Stands s st'.trace checked →
      Mirrors s total (go place) (check s budget' st'.trace checked target) st')
    (hbudget' : s.targets.length < budget' + (trace.length + 1)) (hmem : target ∈ s.targets)
    (htrace : trace.visits target.1 = false) (h : Reached s trace checked target.1)
    (hname : target.1 ∉ checked) (hst : st.Stands s trace checked) :
    Mirrors s total ((edges s target.2).forM (followBy s go target.1))
      ((edges s target.2).foldlM (follow s budget' trace target.1) checked) st := by
  obtain rfl := hst.trace_eq
  refine .foldlM (I := Following s st.trace target.1 checked) hst
    ⟨h, List.suffix_rfl, hname, fun _ he => absurd he List.not_mem_nil⟩ ?_
  intro done e rest checked' st' hl hfollowing hst'
  have he : e ∈ edges s target.2 := by rw [hl]; exact List.mem_append_cons_self
  have hlink := links_iff_mem_edges.2 ⟨target.2, hmem, he⟩
  have hreached := hfollowing.reached.follow htrace hfollowing.fresh hlink
  constructor
  · rw [← hst'.trace_eq] at hreached ⊢
    refine .followBy hd fun place next hnext =>
      hgo (st'.pushed ⟨target.1, e.1⟩) checked' place (e.2, next) ?_ hnext hreached
        ⟨rfl, hst'.slots_eq⟩
    rw [Search.pushed, List.length_append, hst'.trace_eq]
    rfl
  · refine fun checked'' hx => (follow_outcome (fun next hnext hreached => ?_) hmem htrace hl
      hfollowing).of_ok hx
    refine check_outcome hd ?_ hnext hreached
    rwa [List.length_append, List.length_singleton]

/-- A visit goes as the check of the target does, whatever their budgets are, if only they are
    large enough. -/
theorem mirrors_visit (hd : (s.targets.map (·.1)).Nodup) {budget' total : Nat}
    (htotal : budget + st.trace.length = total) (hbudget : s.targets.length < total)
    (hbudget' : s.targets.length < budget' + st.trace.length)
    (htarget : s.targets[place]? = some target) (h : Reached s st.trace checked target.1)
    (hst : st.Stands s st.trace checked) :
    Mirrors s total (visit s budget place) (check s budget' st.trace checked target) st := by
  -- Both budgets go down together. Neither is used up, as the way is not longer than there are
  -- targets.
  induction budget generalizing budget' checked place target st with
  | zero =>
    have := h.way.length_le
    omega
  | succ budget ih =>
    cases budget' with
    | zero =>
      have := h.way.length_le
      omega
    | succ budget' =>
      have hmem := List.mem_of_getElem? htarget
      have hslot : slotAt st.slots place =
          if target.1 ∈ checked then some (resolveEntry s target) else none := by
        rw [hst.slots_eq, slotAt_slotsOf htarget]
      refine .visit htarget (hst.slots_eq ▸ h.sound hd htarget) htotal ?_
      rw [check_succ, hslot]
      by_cases hname : target.1 ∈ checked
      · rw [if_pos hname, if_pos (List.contains_iff_mem.2 hname)]
        exact .ok ⟨rfl, hst.slots_eq⟩
      rw [if_neg hname, if_neg (mt List.contains_iff_mem.1 hname)]
      cases htrace : st.trace.visits target.1 with
      | true => exact .error _
      | false =>
        have hbudget'' : s.targets.length < budget' + (st.trace.length + 1) := by omega
        have hedges : Mirrors s total
            ((edges s target.2).forM (followBy s (visit s budget) target.1))
            ((edges s target.2).foldlM (follow s budget' st.trace target.1) checked)
            (st.entered (budget + 1) place) := by
          refine mirrors_edges hd (fun _ _ _ _ hlength htarget' hreached hst' => ?_) hbudget'' hmem
            htrace h hname ⟨rfl, hst.slots_eq⟩
          exact ih (by omega) (by omega) htarget' hreached hst'
        refine .ensure fun _ => hedges.bind fun checked' st' _ hst' => ?_
        exact .ensure fun _ => .filled hd htarget (hst'.trace_eq ▸ hst')

/-- All targets are visited as they are checked. -/
theorem mirrors_visitAll (hd : (s.targets.map (·.1)).Nodup) (hbudget : s.targets.length < budget) :
    Mirrors s budget (visitAll s budget) (checkAll s) (.start s) := by
  have hchecks : checkAll s = s.targets.zipIdx.foldlM
      (fun checked x => check s (s.targets.length + 1) [] checked x.1) [] := by
    rw [← List.foldlM_map, List.zipIdx_map_fst]
    rfl
  have hstart : (Search.start s).Stands s [] [] := ⟨rfl, by simp [Search.start, slotsOf]⟩
  rw [hchecks]
  refine .foldlM (I := fun _ checked => Checked s checked) hstart .nil ?_
  rintro done ⟨target, place⟩ rest checked st hl hchecked ⟨htrace, hslots⟩
  replace htrace : st.trace = [] := htrace
  have hx : (target, place) ∈ s.targets.zipIdx := by
    rw [hl]
    exact List.mem_append_cons_self
  have htarget := List.mem_zipIdx_iff_getElem?.1 hx
  have hreached : Reached s [] checked target.1 := ⟨.start _, hchecked, fun _ _ => rfl⟩
  constructor
  · rw [← htrace] at hreached ⊢
    refine mirrors_visit hd ?_ hbudget (by omega) htarget hreached ⟨rfl, hslots⟩
    rw [htrace]
    rfl
  · intro checked' hx
    have hadded := check_outcome hd (Nat.lt_succ_self _) (List.mem_of_getElem? htarget) hreached
    exact (hadded.of_ok hx).reached.known

/-- When all targets have been checked, all slots are filled. -/
theorem slotsOf_of_forall_mem (h : ∀ t ∈ s.targets, t.1 ∈ checked) :
    slotsOf s checked = (s.targets.map (resolveEntry s)).map some := by
  rw [slotsOf, List.map_map]
  exact List.map_congr_left fun t ht => if_pos (h t ht)

end Resolution

open BuildFile Resolution

/-- The search in one pass ends as the check of all targets does, if its budget is more than there
    are targets, and in the end each slot has the vertex of its target. Whenever it comes to a
    place, the trace is a walk to the target there which meets no target twice, no slot of a target
    on the trace is filled, and vertices in slots refer to places whose slots are filled. A visit
    ends with the trace that it began with and all vertices that it found. So there never are more
    visits inside each other than targets and one. -/
theorem visits_sound (file : BuildFile) (secrets : List SecretSource)
    (htargets : (file.targets.map (·.1)).Nodup) (extra : Nat) :
    let s := file.scope secrets
    let budget := file.targets.length + 1 + extra
    let run := (visitAll s budget).run (.start s)
    run.1 = (checkAll s).map (fun _ => ()) ∧
      (run.1 = .ok () → run.2.slots = (resolved file secrets).vertices.map some) ∧
      (∀ v ∈ run.2.visits, v.Sound s ∧ v.budget + v.trace.length = budget) ∧
      ∀ b place st, Search.Extends st ((visit s b place).run st).2 := by
  intro s budget run
  have hrun : Mirrors s budget (visitAll s budget) (checkAll s) (.start s) :=
    mirrors_visitAll htargets (by change file.targets.length < _; omega)
  refine ⟨hrun.result, fun hok => ?_, fun v hv => ?_, extends_visit s⟩
  · have hresult : (checkAll s).map (fun _ => ()) = .ok () := hrun.result.symm.trans hok
    cases hchecked : checkAll s with
    | error e =>
      rw [hchecked] at hresult
      cases hresult
    | ok checked =>
      have hall := (checkAll_outcome (s := s) htargets).of_ok hchecked
      exact (hrun.stands checked hchecked).slots_eq.trans (slotsOf_of_forall_mem hall.2)
  · exact (hrun.visits v hv).resolve_left List.not_mem_nil

/-- A target that others share, and one with a dependency that is not declared. -/
def sharing : BuildFile where
  apiVersion := supportedVersion
  targets := [
    ("app", .target { base := some "alpine", copies := .one ⟨some "lib", "/lib", "/"⟩ }),
    ("lib", .target { base := some "golang" }),
    ("all", .aggregate ["app", "lib"]),
    ("release", .aggregate ["all", "notes"])]

theorem visits_sound_sharing :
    let s := sharing.scope []
    let run := (visitAll s 5).run (.start s)
    run.1 = .error (.unknownDependency "release" "notes") ∧ run.2.trace = [] ∧
      run.2.slots.map (·.map (·.name)) = [some "app", some "lib", some "all", none] ∧
      run.2.visits.map (fun v => (v.place, v.trace.render)) =
        [(0, ""), (1, "app(copy)"), (1, ""), (2, ""), (0, "all(dependsOn)"), (1, "all(dependsOn)"),
          (3, ""), (2, "release(dependsOn)")] ∧
      ∀ v ∈ run.2.visits, v.Sound s ∧ v.budget + v.trace.length = 5 := by
  have h := visits_sound sharing [] (by decide) 0
  exact ⟨by rfl, by rfl, by rfl, by rfl, h.2.2.1⟩

end ContainerBuild
