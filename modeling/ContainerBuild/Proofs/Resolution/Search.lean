import ContainerBuild.Proofs.BuildFile.Links
import ContainerBuild.Proofs.Order
import ContainerBuild.Proofs.Outcome
import Mathlib.Data.List.Perm.Subperm

/-!
# The search through a build file

What a depth-first check of the targets knows at any time:

* the trace is a *way* to the target at hand, along links of the build file,
  that meets no target twice (`Way`);
* the targets checked so far are right in themselves and ordered by the links,
  so there is no cycle among them (`Checked`);
* nothing on the way has been checked (`Reached`).

Both the results and the errors of the check follow from this (`check_outcome`):
a check adds the target to those checked before, or it fails for a cause that
`Failure` describes, with all that had been checked by then. As a way meets no
target twice, the budget is never used up.
-/

namespace ContainerBuild.Resolution

open BuildFile (Entry Declares Links Leads)

variable (s : Scope)

/-- A trace is a way to a target: each of its targets links to the next one, by
    an edge of the recorded kind, and none comes twice. -/
inductive Way : Trace → String → Prop
  | start (name : String) : Way [] name
  | follow {trace : Trace} {edge : Edge} {a b : String} :
    Way trace a → trace.visits a = false → Links s.targets edge a b →
    Way (trace ++ [⟨a, edge⟩]) b

/-- Targets that are right in themselves and are listed after all they lead to,
    the last one first. -/
structure Checked (checked : List String) : Prop where
  ordered : Ordered (Leads s.targets) checked.reverse
  sound : ∀ name ∈ checked, ∃ entry, (name, entry) ∈ s.targets ∧
    checkBefore name entry = .ok () ∧ checkAfter s name entry = .ok ()

/-- A target is reached by a way on which nothing has been checked yet. -/
structure Reached (trace : Trace) (checked : List String) (name : String) : Prop where
  way : Way s trace name
  known : Checked s checked
  apart : ∀ n ∈ checked, trace.visits n = false

/-- Why a check fails, with the targets checked by then. -/
inductive Failure : Error → Prop
  /-- The target is on the way to itself. -/
  | cycle {trace : Trace} {name : String} :
    Way s trace name → trace.visits name = true → Failure (.dependencyCycle name trace)
  /-- The target is wrong whatever it refers to. -/
  | before {name : String} {entry : Entry} {e : Error} :
    (name, entry) ∈ s.targets → checkBefore name entry = .error e → Failure e
  /-- All edges before the one to `target` lead to checked targets. -/
  | unknown {checked : List String} {name target : String} {entry : Entry}
    {done rest : List (Edge × String)} :
    Checked s checked → (name, entry) ∈ s.targets →
    edges s entry = done ++ (.dependsOn, target) :: rest → (∀ e ∈ done, e.2 ∈ checked) →
    ¬Declares s.targets target → Failure (.unknownDependency name target)
  /-- The target is wrong, and all edges lead to checked targets. -/
  | after {checked : List String} {name : String} {entry : Entry} {e : Error} :
    Checked s checked → (name, entry) ∈ s.targets → (∀ e ∈ edges s entry, e.2 ∈ checked) →
    checkAfter s name entry = .error e → Failure e

variable {s}

/-! ### Ways -/

theorem visits_concat {trace : Trace} {edge : Edge} {a name : String} :
    Trace.visits (trace ++ [⟨a, edge⟩]) name = (trace.visits name || a == name) := by
  simp [Trace.visits]

theorem visits_iff {trace : Trace} {name : String} :
    trace.visits name = true ↔ name ∈ trace.map (·.target) := by
  simp [Trace.visits]

theorem Way.nodup {trace : Trace} {name : String} (h : Way s trace name) :
    (trace.map (·.target)).Nodup := by
  induction h with
  | start => exact List.nodup_nil
  | @follow trace edge a b _ ha _ ih =>
    rw [List.map_append]
    refine ih.append (List.nodup_singleton a) fun x hx hx' => ?_
    rw [List.mem_singleton.1 hx', ← visits_iff, ha] at hx
    exact Bool.false_ne_true hx

theorem Way.declares {trace : Trace} {name : String} (h : Way s trace name) :
    ∀ n ∈ trace.map (·.target), Declares s.targets n := by
  induction h with
  | start => exact fun _ hn => absurd hn List.not_mem_nil
  | follow _ _ hl ih =>
    intro n hn
    rw [List.map_append] at hn
    rcases List.mem_append.1 hn with hn | hn
    · exact ih n hn
    · exact List.mem_singleton.1 hn ▸ hl.declares_left

/-- Everything on a way leads to its end. -/
theorem Way.transGen {trace : Trace} {name : String} (h : Way s trace name) {n : String}
    (hn : n ∈ trace.map (·.target)) : Relation.TransGen (Leads s.targets) n name := by
  induction h with
  | start => exact absurd hn List.not_mem_nil
  | @follow trace edge a b _ _ hl ih =>
    rw [List.map_append] at hn
    rcases List.mem_append.1 hn with hn | hn
    · exact (ih hn).tail ⟨edge, hl⟩
    · exact List.mem_singleton.1 hn ▸ .single ⟨edge, hl⟩

/-- A way is no longer than there are targets. -/
theorem Way.length_le {trace : Trace} {name : String} (h : Way s trace name) :
    trace.length ≤ s.targets.length := by
  have hsub : (trace.map (·.target)).Subperm (s.targets.map (·.1)) :=
    List.subperm_of_subset h.nodup h.declares
  simpa using hsub.length_le

theorem Checked.nil : Checked s [] :=
  ⟨.nil, fun _ hn => absurd hn List.not_mem_nil⟩

theorem Checked.declares {checked : List String} (h : Checked s checked) {name : String}
    (hn : name ∈ checked) : Declares s.targets name := by
  obtain ⟨_, hmem, _⟩ := h.sound name hn
  exact BuildFile.declares_of_mem hmem

/-- What a checked target leads to is checked. -/
theorem Checked.mem_of_reaches {checked : List String} (h : Checked s checked) {name u : String}
    (hn : name ∈ checked) (hu : Relation.ReflTransGen (Leads s.targets) name u) : u ∈ checked :=
  List.mem_reverse.1 (h.ordered.mem_of_reflTransGen (List.mem_reverse.2 hn) hu)

theorem Checked.irrefl {checked : List String} (h : Checked s checked) {name : String}
    (hn : name ∈ checked) : ¬Relation.TransGen (Leads s.targets) name name :=
  h.ordered.irrefl (List.mem_reverse.2 hn)

theorem Checked.cons (hd : (s.targets.map (·.1)).Nodup) {checked : List String}
    (h : Checked s checked) {name : String} {entry : Entry} (hmem : (name, entry) ∈ s.targets)
    (hn : name ∉ checked) (hedges : ∀ e ∈ edges s entry, e.2 ∈ checked)
    (hbefore : checkBefore name entry = .ok ()) (hafter : checkAfter s name entry = .ok ()) :
    Checked s (name :: checked) := by
  constructor
  · rw [List.reverse_cons]
    refine h.ordered.concat (fun hn' => hn (List.mem_reverse.1 hn')) ?_
    rintro b ⟨edge, hlink⟩
    obtain ⟨entry', hmem', he⟩ := links_iff_mem_edges.1 hlink
    obtain rfl := BuildFile.entry_unique hd hmem hmem'
    exact List.mem_reverse.2 (hedges _ he)
  · intro n hn
    rcases List.mem_cons.1 hn with rfl | hn
    · exact ⟨entry, hmem, hbefore, hafter⟩
    · exact h.sound n hn

/-! ### The check of a target -/

/-- Follows an edge of the target `name`, which a trace has reached. -/
def follow (s : Scope) (budget : Nat) (trace : Trace) (name : String) (checked : List String)
    (e : Edge × String) : Except Error (List String) :=
  match s.targets.lookup e.2 with
  | none => .error (.unknownDependency name e.2)
  | some next => check s budget (trace ++ [⟨name, e.1⟩]) checked (e.2, next)

theorem check_succ {budget : Nat} {trace : Trace} {checked : List String} {name : String}
    {entry : Entry} : check s (budget + 1) trace checked (name, entry) =
      if checked.contains name then .ok checked
      else if trace.visits name then .error (.dependencyCycle name trace)
      else do
        checkBefore name entry
        let checked ← (edges s entry).foldlM (follow s budget trace name) checked
        checkAfter s name entry
        return name :: checked := rfl

/-- What the check of a target gives: the target is checked, along with some
    others that are not on the way to it. -/
structure Added (s : Scope) (trace : Trace) (name : String) (checked checked' : List String) :
    Prop where
  reached : Reached s trace checked' name
  suffix : checked <:+ checked'
  mem : name ∈ checked'

/-- What is known while the edges of a target are followed, `done` being those
    followed so far. -/
structure Following (s : Scope) (trace : Trace) (name : String) (checked : List String)
    (done : List (Edge × String)) (checked' : List String) : Prop where
  reached : Reached s trace checked' name
  suffix : checked <:+ checked'
  fresh : name ∉ checked'
  closed : ∀ e ∈ done, e.2 ∈ checked'

/-- A link of a target that has not been checked goes on with the way to it. -/
theorem Reached.follow {trace : Trace} {checked : List String} {name b : String} {edge : Edge}
    (h : Reached s trace checked name) (htrace : trace.visits name = false) (hn : name ∉ checked)
    (hlink : Links s.targets edge name b) : Reached s (trace ++ [⟨name, edge⟩]) checked b := by
  -- The way now visits the target itself, which has not been checked.
  refine ⟨h.way.follow htrace hlink, h.known, fun n hn' => ?_⟩
  rw [visits_concat, h.apart n hn', Bool.false_or, beq_eq_false_iff_ne]
  rintro rfl
  exact hn hn'

/-- Following an edge keeps what is known, if it is so for the check of the
    target that the edge leads to. -/
theorem follow_outcome {budget : Nat} {trace : Trace} {name : String} {entry : Entry}
    {checked checked' : List String} {e : Edge × String} {done rest : List (Edge × String)}
    (hcheck : ∀ next, (e.2, next) ∈ s.targets →
      Reached s (trace ++ [⟨name, e.1⟩]) checked' e.2 →
      Outcome (Added s (trace ++ [⟨name, e.1⟩]) e.2 checked') (Failure s)
        (check s budget (trace ++ [⟨name, e.1⟩]) checked' (e.2, next)))
    (hmem : (name, entry) ∈ s.targets) (htrace : trace.visits name = false)
    (hl : edges s entry = done ++ e :: rest)
    (h : Following s trace name checked done checked') :
    Outcome (Following s trace name checked (done ++ [e])) (Failure s)
      (follow s budget trace name checked' e) := by
  have he : e ∈ edges s entry := by rw [hl]; exact List.mem_append_cons_self
  unfold follow
  cases hnext : s.targets.lookup e.2 with
  | none =>
    have hundeclared := lookup_eq_none_iff.1 hnext
    have hedge : e.1 = .dependsOn := edge_of_not_declares he hundeclared
    exact .error (.unknown h.reached.known hmem (by rw [hl, ← hedge]) h.closed hundeclared)
  | some next =>
    have hlink : Links s.targets e.1 name e.2 := links_iff_mem_edges.2 ⟨entry, hmem, he⟩
    have hreached := h.reached.follow htrace h.fresh hlink
    refine (hcheck next (mem_of_lookup hnext) hreached).imp fun checked'' hadd => ?_
    -- The other way round, the target is on the way, so it has not been checked
    -- meanwhile.
    have hapart := fun n hn => (visits_concat ▸ hadd.reached.apart n hn :
      (trace.visits n || name == n) = false)
    refine ⟨⟨h.reached.way, hadd.reached.known, fun n hn => ?_⟩, h.suffix.trans hadd.suffix,
      fun hn => ?_, fun e' he' => ?_⟩
    · exact (Bool.or_eq_false_iff.1 (hapart n hn)).1
    · exact beq_eq_false_iff_ne.1 (Bool.or_eq_false_iff.1 (hapart name hn)).2 rfl
    · rcases List.mem_append.1 he' with he' | he'
      · exact hadd.suffix.subset (h.closed e' he')
      · exact List.mem_singleton.1 he' ▸ hadd.mem

/-- Following all edges of a target leaves all of them to checked targets, if it is so for the
    checks of the targets that they lead to. -/
theorem edges_outcome {budget : Nat} {trace : Trace} {checked : List String} {name : String}
    {entry : Entry}
    (hcheck : ∀ {checked'} {e : Edge × String} next, (e.2, next) ∈ s.targets →
      Reached s (trace ++ [⟨name, e.1⟩]) checked' e.2 →
      Outcome (Added s (trace ++ [⟨name, e.1⟩]) e.2 checked') (Failure s)
        (check s budget (trace ++ [⟨name, e.1⟩]) checked' (e.2, next)))
    (hmem : (name, entry) ∈ s.targets) (htrace : trace.visits name = false)
    (h : Reached s trace checked name) (hn : name ∉ checked) :
    Outcome (Following s trace name checked (edges s entry)) (Failure s)
      ((edges s entry).foldlM (follow s budget trace name) checked) := by
  refine Outcome.foldlM ⟨h, List.suffix_rfl, hn, fun _ he => absurd he List.not_mem_nil⟩ ?_
  intro done e rest checked' hl hfollowing
  exact follow_outcome hcheck hmem htrace hl hfollowing

/-- A check adds the target to those checked before, or fails for a cause. -/
theorem check_outcome (hd : (s.targets.map (·.1)).Nodup) {budget : Nat} {trace : Trace}
    {checked : List String} {name : String} {entry : Entry}
    (hbudget : s.targets.length < budget + trace.length) (hmem : (name, entry) ∈ s.targets)
    (h : Reached s trace checked name) :
    Outcome (Added s trace name checked) (Failure s)
      (check s budget trace checked (name, entry)) := by
  induction budget generalizing trace checked name entry with
  | zero =>
    -- The budget is used up only by a way that is longer than there are targets.
    have := h.way.length_le
    omega
  | succ budget ih =>
    rw [check_succ]
    by_cases hn : name ∈ checked
    · rw [if_pos (List.contains_iff_mem.2 hn)]
      exact .ok ⟨h, List.suffix_rfl, hn⟩
    rw [if_neg (mt List.contains_iff_mem.1 hn)]
    cases htrace : trace.visits name with
    | true => exact .error (.cycle h.way htrace)
    | false =>
      cases hbefore : checkBefore name entry with
      | error e => exact .error (.before hmem hbefore)
      | ok _ =>
        have hfold : Outcome (Following s trace name checked (edges s entry)) (Failure s)
            ((edges s entry).foldlM (follow s budget trace name) checked) := by
          refine edges_outcome (fun next hnext hreached => ih ?_ hnext hreached) hmem htrace h hn
          rw [List.length_append, List.length_singleton]
          omega
        refine hfold.bind fun checked' hf => ?_
        -- All edges lead to checked targets, so the target can be listed behind.
        cases hafter : checkAfter s name entry with
        | error e => exact .error (.after hf.reached.known hmem hf.closed hafter)
        | ok _ =>
          have hknown : Checked s (name :: checked') :=
            hf.reached.known.cons hd hmem hf.fresh hf.closed hbefore hafter
          refine .ok ⟨⟨h.way, hknown, fun n hn' => ?_⟩, hf.suffix.trans (List.suffix_cons _ _),
            List.mem_cons_self⟩
          rcases List.mem_cons.1 hn' with rfl | hn'
          · exact htrace
          · exact hf.reached.apart n hn'

/-- The check of all targets ends with all of them checked, or fails for a
    cause. -/
theorem checkAll_outcome (hd : (s.targets.map (·.1)).Nodup) :
    Outcome (fun checked => Checked s checked ∧ ∀ t ∈ s.targets, t.1 ∈ checked) (Failure s)
      (checkAll s) := by
  refine Outcome.foldlM (I := fun (done : List (String × Entry)) checked =>
    Checked s checked ∧ ∀ t ∈ done, t.1 ∈ checked)
    ⟨.nil, fun _ ht => absurd ht List.not_mem_nil⟩ ?_
  rintro done ⟨name, entry⟩ rest checked hl ⟨hchecked, hdone⟩
  have hmem : (name, entry) ∈ s.targets := by
    rw [hl]; exact List.mem_append_cons_self
  have hreached : Reached s [] checked name := ⟨.start name, hchecked, fun _ _ => rfl⟩
  refine (check_outcome hd (Nat.lt_succ_self _) hmem hreached).imp fun checked' hadd => ?_
  refine ⟨hadd.reached.known, fun t ht => ?_⟩
  rcases List.mem_append.1 ht with ht | ht
  · exact hadd.suffix.subset (hdone t ht)
  · exact List.mem_singleton.1 ht ▸ hadd.mem

end ContainerBuild.Resolution
