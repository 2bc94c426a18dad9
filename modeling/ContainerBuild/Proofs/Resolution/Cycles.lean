import ContainerBuild.Proofs.Resolution.Faults

/-!
# Reported cycles

A cycle is reported with the target at which it closes and the way on which that
target was reached twice. The way is a *walk* along links of the build file
(`Walk`): it may begin outside the cycle, but from the reported target on it is
one, and it meets no target twice (`CycleReport`).

If nothing else is wrong with the targets, a cycle is reported exactly if there
is one (`resolve_cycle_iff`).
-/

namespace ContainerBuild

open Relation

namespace BuildFile

section

variable (targets : List (String × Entry))

/-- The steps of a walk: each of the targets refers to the next one, and the last
    one to the end, by an edge of the recorded kind. -/
inductive Walk : String → Trace → String → Prop
  | nil (name : String) : Walk name [] name
  | cons {a b c : String} {edge : Edge} {trace : Trace} :
    Links targets edge a b → Walk b trace c → Walk a (⟨a, edge⟩ :: trace) c

/-- A trace meets no target twice, leads to the reported target, and has met it
    before: from there on it is a cycle. -/
structure CycleReport (name : String) (trace : Trace) : Prop where
  nodup : (trace.map (·.target)).Nodup
  walk : ∃ first, Walk targets first trace name
  mem : name ∈ trace.map (·.target)
  cycle : ∃ lead cycle, trace = lead ++ cycle ∧ cycle ≠ [] ∧ Walk targets name cycle name

/-- Nothing is wrong with any target of a build file taken by itself. -/
structure TargetsSound (file : BuildFile) (secrets : List SecretSource) : Prop where
  base : ∀ name entry, (name, entry) ∈ file.targets → entry.toTarget.DescribesStage →
    entry.toTarget.base ≠ none
  nonempty : ∀ name entry, (name, entry) ∈ file.targets → ¬entry.toTarget.DescribesStage →
    entry.toTarget.dependsOn ≠ []
  dependencies : ∀ name entry, (name, entry) ∈ file.targets →
    ∀ target ∈ entry.toTarget.dependsOn, Declares file.targets target
  secrets : ∀ name entry, (name, entry) ∈ file.targets →
    ∀ m ∈ entry.toTarget.secrets.toList, m.id ∈ secrets.map (·.id)

end

variable {targets : List (String × Entry)} {a b c : String} {edge : Edge} {trace : Trace}

/-! ### Walks -/

theorem Walk.concat (h : Walk targets a trace b) (hl : Links targets edge b c) :
    Walk targets a (trace ++ [⟨b, edge⟩]) c := by
  induction h with
  | nil => exact .cons hl (.nil c)
  | cons hl' _ ih => exact .cons hl' (ih hl)

/-- A walk can be taken up at any of its targets. -/
theorem Walk.from_step {lead rest : Trace} (h : Walk targets a (lead ++ ⟨b, edge⟩ :: rest) c) :
    Walk targets b (⟨b, edge⟩ :: rest) c := by
  induction lead generalizing a with
  | nil =>
    rw [List.nil_append] at h
    cases h with
    | cons hl hrest => exact .cons hl hrest
  | cons step lead ih =>
    cases h with
    | cons _ hrest => exact ih hrest

theorem Walk.transGen (h : Walk targets a trace b) (hne : trace ≠ []) :
    TransGen (Leads targets) a b := by
  induction h with
  | nil => exact absurd rfl hne
  | @cons a b c edge trace hl hrest ih =>
    cases trace with
    | nil =>
      cases hrest
      exact .single ⟨edge, hl⟩
    | cons step trace => exact .head ⟨edge, hl⟩ (ih (List.cons_ne_nil _ _))

end BuildFile

namespace Resolution

open BuildFile (Entry Declares Links Leads Walk CycleReport TargetsSound)

variable {s : Scope} {file : BuildFile} {secrets : List SecretSource} {name : String}
  {trace : Trace}

/-- The way to a target is a walk. -/
theorem Way.exists_walk (h : Way s trace name) : ∃ first, Walk s.targets first trace name := by
  induction h with
  | start name => exact ⟨name, .nil name⟩
  | follow _ _ hl ih =>
    obtain ⟨first, hwalk⟩ := ih
    exact ⟨first, hwalk.concat hl⟩

/-- A way that comes to one of its own targets reports a cycle. -/
theorem Way.cycleReport (h : Way s trace name) (hvisits : trace.visits name = true) :
    CycleReport s.targets name trace := by
  obtain ⟨first, hwalk⟩ := h.exists_walk
  have hmem := visits_iff.1 hvisits
  refine ⟨h.nodup, ⟨first, hwalk⟩, hmem, ?_⟩
  obtain ⟨⟨target, edge⟩, hstep, rfl⟩ := List.mem_map.1 hmem
  obtain ⟨lead, rest, rfl⟩ := List.append_of_mem hstep
  exact ⟨lead, ⟨target, edge⟩ :: rest, rfl, List.cons_ne_nil _ _, hwalk.from_step⟩

/-! ### Failures -/

/-- No other failure is reported as a cycle. -/
theorem Failure.cycleReport (h : Failure s (.dependencyCycle name trace)) :
    CycleReport s.targets name trace := by
  cases h with
  | cycle hway hvisits => exact hway.cycleReport hvisits
  | before _ hbefore =>
    obtain ⟨_, _, he⟩ := checkBefore_outcome.of_error hbefore
    cases he
  | after _ _ _ hafter =>
    obtain ⟨_, _, he⟩ | ⟨_, _, _, _, _, _, he⟩ := checkAfter_outcome.of_error hafter
    · cases he
    · cases he

/-- If no target is wrong by itself, the only failure is a cycle. -/
theorem Failure.exists_cycle {e : Error} (h : Failure (file.scope secrets) e)
    (hsound : TargetsSound file secrets) : ∃ name trace, e = .dependencyCycle name trace := by
  cases h with
  | @cycle trace name _ _ => exact ⟨name, trace, rfl⟩
  | before hmem hbefore =>
    obtain ⟨hs, hb, _⟩ := checkBefore_outcome.of_error hbefore
    exact absurd hb (hsound.base _ _ hmem hs)
  | @unknown _ name target entry done rest _ hmem hedges _ hd =>
    have he : (Edge.dependsOn, target) ∈ edges (file.scope secrets) entry := by
      rw [hedges]; exact List.mem_append_cons_self
    have ht : target ∈ entry.toTarget.dependsOn := by simpa using mem_edges.1 he
    exact absurd (hsound.dependencies _ _ hmem _ ht) hd
  | after _ hmem _ hafter =>
    obtain ⟨hs, hd, _⟩ | ⟨known, m, rest, hm, _, hid, _⟩ := checkAfter_outcome.of_error hafter
    · exact absurd hd (hsound.nonempty _ _ hmem hs)
    · refine absurd (hsound.secrets _ _ hmem m ?_) hid
      rw [hm]; exact List.mem_append_cons_self

/-- Once version and names are checked, resolution checks the targets, and if
    all of them pass, the variables. -/
theorem resolve_eq (hversion : file.apiVersion = BuildFile.supportedVersion)
    (htargets : (file.targets.map (·.1)).Nodup) (hvars : (file.vars.map (·.1)).Nodup) :
    file.resolve secrets = (do
      let _ ← checkAll (file.scope secrets)
      file.vars.forM (checkVar (file.scope secrets))
      return resolved file secrets) := by
  have hunique : ∀ {kind names}, names.Nodup → checkUnique kind names = .ok () := by
    intro kind names hnodup
    cases h : checkUnique kind names with
    | ok => rfl
    | error e =>
      obtain ⟨_, hd, _⟩ := (checkUnique_outcome kind names).of_error h
      exact absurd hnodup hd.not_nodup
  rw [BuildFile.resolve, if_neg (not_not.2 hversion), hunique htargets, hunique hvars]
  rfl

/-- Resolution fails for a target, or else there is no cycle, and only a secret
    of a variable can be unknown. -/
theorem resolve_failure_outcome (secrets : List SecretSource)
    (hversion : file.apiVersion = BuildFile.supportedVersion)
    (htargets : (file.targets.map (·.1)).Nodup) (hvars : (file.vars.map (·.1)).Nodup) :
    Outcome (fun _ => ∀ name, ¬TransGen (Leads file.targets) name name)
      (fun e => Failure (file.scope secrets) e ∨
        (∀ name, ¬TransGen (Leads file.targets) name name) ∧
          ∃ owner id, e = .unknownSecret owner id)
      (file.resolve secrets) := by
  rw [resolve_eq hversion htargets hvars]
  have hcheck := checkAll_outcome (s := file.scope secrets) htargets
  refine (hcheck.imp_error fun _ => Or.inl).bind fun checked hchecked => ?_
  have hacyclic := hchecked.1.acyclic hchecked.2
  refine Outcome.bind (P := fun _ => True) ?_ fun _ _ => .ok hacyclic
  refine (Outcome.forM (P := fun _ => True) fun _ v _ _ _ => ?_).imp fun _ _ => trivial
  have hsecrets := checkSecrets_outcome (file.scope secrets) ⟨.var, v.1⟩ v.2.secrets.toList
  refine (hsecrets.imp fun _ _ => trivial).imp_error ?_
  rintro _ ⟨_, m, _, _, _, _, rfl⟩
  exact .inr ⟨hacyclic, _, m.id, rfl⟩

end Resolution

open BuildFile Resolution

/-- The trace of a reported cycle spells a walk to the reported target, which
    meets no target twice and goes round a cycle at its end. If no target is
    wrong by itself, a cycle is reported exactly if there is one. -/
theorem resolve_cycle_iff (file : BuildFile) (secrets : List SecretSource)
    (hversion : file.apiVersion = supportedVersion)
    (htargets : (file.targets.map (·.1)).Nodup) (hvars : (file.vars.map (·.1)).Nodup) :
    (∀ name trace, file.resolve secrets = .error (.dependencyCycle name trace) →
      CycleReport file.targets name trace ∧
        (Error.dependencyCycle name trace).message =
          "Recursive graph detected by '" ++ name ++ "' target, trace: " ++
            String.intercalate "->" (trace.map fun s => s.target ++ "(" ++ s.edge.field ++ ")")) ∧
    (TargetsSound file secrets →
      ((∃ name trace, file.resolve secrets = .error (.dependencyCycle name trace)) ↔
        ∃ name, TransGen (Leads file.targets) name name)) := by
  have houtcome := resolve_failure_outcome secrets hversion htargets hvars
  have hreport : ∀ {name trace}, file.resolve secrets = .error (.dependencyCycle name trace) →
      CycleReport file.targets name trace := by
    intro name trace hr
    obtain hf | ⟨_, _, _, he⟩ := houtcome.of_error hr
    · exact hf.cycleReport
    · cases he
  refine ⟨fun name trace hr => ⟨hreport hr, rfl⟩, fun hsound => ⟨?_, ?_⟩⟩
  · rintro ⟨name, trace, hr⟩
    obtain ⟨_, cycle, _, hne, hwalk⟩ := (hreport hr).cycle
    exact ⟨name, hwalk.transGen hne⟩
  · rintro ⟨name, hcycle⟩
    cases hr : file.resolve secrets with
    | ok d => exact absurd hcycle (houtcome.of_ok hr name)
    | error e =>
      obtain hf | ⟨hacyclic, _⟩ := houtcome.of_error hr
      · obtain ⟨name, trace, rfl⟩ := hf.exists_cycle hsound
        exact ⟨name, trace, rfl⟩
      · exact absurd hcycle (hacyclic name)

/-- A cycle of three targets by edges of all kinds, which is entered from a fourth
    one. -/
def looped : BuildFile where
  apiVersion := supportedVersion
  targets := [
    ("app", .target { base := some "alpine", copies := .one ⟨some "lib", "/lib", "/"⟩ }),
    ("gen", .target { base := some "base" }),
    ("lib", .aggregate ["gen"]),
    ("base", .target {
      base := some "golang"
      copies := .many [⟨none, ".", "."⟩, ⟨some "lib", "/lib", "/"⟩] })]

theorem resolve_cycle_iff_looped :
    ∃ trace, looped.resolve [] = .error (.dependencyCycle "lib" trace) ∧
      trace.render = "app(copy)->lib(dependsOn)->gen(from)->base(copy)" ∧
      CycleReport looped.targets "lib" trace ∧
      TargetsSound looped [] ∧ ∃ name, TransGen (Leads looped.targets) name name := by
  have h := resolve_cycle_iff looped [] rfl (by decide) (by decide)
  have hresult : looped.resolve [] = .error (.dependencyCycle "lib"
      [⟨"app", .copy⟩, ⟨"lib", .dependsOn⟩, ⟨"gen", .base⟩, ⟨"base", .copy⟩]) := by rfl
  have hsound : TargetsSound looped [] := by
    constructor
    · exact fun _ _ hmem => (by decide : ∀ x ∈ looped.targets,
        x.2.toTarget.DescribesStage → x.2.toTarget.base ≠ none) _ hmem
    · exact fun _ _ hmem => (by decide : ∀ x ∈ looped.targets,
        ¬x.2.toTarget.DescribesStage → x.2.toTarget.dependsOn ≠ []) _ hmem
    · exact fun _ _ hmem => (by decide : ∀ x ∈ looped.targets,
        ∀ target ∈ x.2.toTarget.dependsOn, target ∈ looped.targets.map (·.1)) _ hmem
    · exact fun _ _ hmem => (by decide : ∀ x ∈ looped.targets,
        ∀ m ∈ x.2.toTarget.secrets.toList, m.id ∈ []) _ hmem
  exact ⟨_, hresult, by rfl, (h.1 _ _ hresult).1, hsound, (h.2 hsound).1 ⟨_, _, hresult⟩⟩

end ContainerBuild
