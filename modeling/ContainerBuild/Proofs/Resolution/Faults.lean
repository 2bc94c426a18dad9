import ContainerBuild.Proofs.Resolution.Search
import Mathlib.Data.List.Duplicate

/-!
# Faults of build files

A build file can be resolved if nothing is wrong with it (`Resolvable`): its
version is understood, no name is declared twice, every target is right in
itself, every name that must be declared is, and no target leads to itself.
`Fault` lists what can be wrong, each with the error that reports it.

Resolution finds a fault exactly if there is one: what it reports is a fault of
the file (`resolve_outcome`), and a file with a fault is not resolvable
(`Fault.not_resolvable`).
-/

namespace ContainerBuild

open Relation

namespace BuildFile

/-- The names that a build file can refer to. -/
def scope (file : BuildFile) (secrets : List SecretSource) : Resolution.Scope :=
  ⟨file.targets, secrets.map (·.id)⟩

variable (file : BuildFile) (secrets : List SecretSource)

/-- Nothing is wrong with a build file. -/
structure Resolvable : Prop where
  version : file.apiVersion = supportedVersion
  targets_nodup : (file.targets.map (·.1)).Nodup
  vars_nodup : (file.vars.map (·.1)).Nodup
  /-- A target without a stage has dependencies. -/
  nonempty : ∀ name entry, (name, entry) ∈ file.targets → ¬entry.toTarget.DescribesStage →
    entry.toTarget.dependsOn ≠ []
  /-- A target with a stage has a base. -/
  base : ∀ name entry, (name, entry) ∈ file.targets → entry.toTarget.DescribesStage →
    entry.toTarget.base ≠ none
  dependencies : ∀ name entry, (name, entry) ∈ file.targets →
    ∀ target ∈ entry.toTarget.dependsOn, Declares file.targets target
  targetSecrets : ∀ name entry, (name, entry) ∈ file.targets →
    ∀ m ∈ entry.toTarget.secrets.toList, m.id ∈ secrets.map (·.id)
  varSecrets : ∀ name v, (name, v) ∈ file.vars →
    ∀ m ∈ v.secrets.toList, m.id ∈ secrets.map (·.id)
  acyclic : ∀ name, ¬TransGen (Leads file.targets) name name

/-- Something is wrong with a build file, and an error says what. -/
inductive Fault : Error → Prop
  | version : file.apiVersion ≠ supportedVersion → Fault (.unsupportedVersion file.apiVersion)
  | targetName {name : String} :
    (file.targets.map (·.1)).Duplicate name → Fault (.duplicateName .target name)
  | varName {name : String} :
    (file.vars.map (·.1)).Duplicate name → Fault (.duplicateName .var name)
  | empty {name : String} {entry : Entry} :
    (name, entry) ∈ file.targets → ¬entry.toTarget.DescribesStage →
    entry.toTarget.dependsOn = [] → Fault (.emptyTarget name)
  | base {name : String} {entry : Entry} :
    (name, entry) ∈ file.targets → entry.toTarget.DescribesStage → entry.toTarget.base = none →
    Fault (.missingBase name)
  | dependency {name target : String} {entry : Entry} :
    (name, entry) ∈ file.targets → target ∈ entry.toTarget.dependsOn →
    ¬Declares file.targets target → Fault (.unknownDependency name target)
  | targetSecret {name : String} {entry : Entry} {m : SecretMount} :
    (name, entry) ∈ file.targets → m ∈ entry.toTarget.secrets.toList →
    m.id ∉ secrets.map (·.id) → Fault (.unknownSecret ⟨.target, name⟩ m.id)
  | varSecret {name : String} {v : Var} {m : SecretMount} :
    (name, v) ∈ file.vars → m ∈ v.secrets.toList → m.id ∉ secrets.map (·.id) →
    Fault (.unknownSecret ⟨.var, name⟩ m.id)
  | cycle {name : String} {trace : Trace} :
    TransGen (Leads file.targets) name name → Fault (.dependencyCycle name trace)

variable {file secrets}

theorem Fault.not_resolvable {e : Error} (h : Fault file secrets e) :
    ¬Resolvable file secrets := by
  intro hr
  cases h with
  | version hv => exact hv hr.version
  | targetName hd => exact hd.not_nodup hr.targets_nodup
  | varName hd => exact hd.not_nodup hr.vars_nodup
  | empty hmem hs hd => exact hr.nonempty _ _ hmem hs hd
  | base hmem hs hb => exact hr.base _ _ hmem hs hb
  | dependency hmem ht hd => exact hd (hr.dependencies _ _ hmem _ ht)
  | targetSecret hmem hm hid => exact hid (hr.targetSecrets _ _ hmem _ hm)
  | varSecret hmem hm hid => exact hid (hr.varSecrets _ _ hmem _ hm)
  | cycle hc => exact hr.acyclic _ hc

end BuildFile

namespace Resolution

open BuildFile (Entry Declares Links Leads Resolvable Fault)

/-! ### The checks of names, secrets and single targets -/

theorem firstRepeated_go_eq_none {seen names : List String}
    (h : firstRepeated.go seen names = none) : names.Nodup ∧ ∀ n ∈ names, n ∉ seen := by
  induction names generalizing seen with
  | nil => exact ⟨List.nodup_nil, fun _ hn => absurd hn List.not_mem_nil⟩
  | cons name rest ih =>
    rw [firstRepeated.go] at h
    split_ifs at h with hseen
    obtain ⟨hd, hrest⟩ := ih h
    refine ⟨List.nodup_cons.2 ⟨fun hn => hrest name hn List.mem_cons_self, hd⟩, fun n hn => ?_⟩
    rcases List.mem_cons.1 hn with rfl | hn
    · exact fun hn' => hseen (List.contains_iff_mem.2 hn')
    · exact fun hn' => hrest n hn (List.mem_cons_of_mem _ hn')

theorem firstRepeated_go_eq_some {seen names : List String} {name : String}
    (h : firstRepeated.go seen names = some name) :
    (name ∈ seen ∧ name ∈ names) ∨ names.Duplicate name := by
  induction names generalizing seen with
  | nil => cases h
  | cons n rest ih =>
    rw [firstRepeated.go] at h
    split_ifs at h with hseen
    · obtain rfl := Option.some.inj h
      exact .inl ⟨List.contains_iff_mem.1 hseen, List.mem_cons_self⟩
    · rcases ih h with ⟨hn, hrest⟩ | hd
      · rcases List.mem_cons.1 hn with rfl | hn
        · exact .inr hrest.duplicate_cons_self
        · exact .inl ⟨hn, List.mem_cons_of_mem _ hrest⟩
      · exact .inr (hd.duplicate_cons n)

theorem checkUnique_outcome (kind : NameKind) (names : List String) :
    Outcome (fun _ => names.Nodup)
      (fun e => ∃ name, names.Duplicate name ∧ e = .duplicateName kind name)
      (checkUnique kind names) := by
  unfold checkUnique
  cases h : firstRepeated names with
  | none => exact .ok (firstRepeated_go_eq_none h).1
  | some name =>
    refine .error ⟨name, ?_, rfl⟩
    exact (firstRepeated_go_eq_some h).resolve_left fun hn => absurd hn.1 List.not_mem_nil

/-- The first unknown secret is reported. -/
theorem checkSecrets_outcome (s : Scope) (owner : SecretOwner) (mounts : List SecretMount) :
    Outcome (fun _ => ∀ m ∈ mounts, m.id ∈ s.secrets)
      (fun e => ∃ known m rest, mounts = known ++ m :: rest ∧ (∀ k ∈ known, k.id ∈ s.secrets) ∧
        m.id ∉ s.secrets ∧ e = .unknownSecret owner m.id)
      (checkSecrets s owner mounts) := by
  unfold checkSecrets
  cases h : mounts.find? fun m => !s.secrets.contains m.id with
  | none => exact .ok (by simpa using h)
  | some m =>
    obtain ⟨hm, known, rest, hmounts, hknown⟩ := List.find?_eq_some_iff_append.1 h
    exact .error ⟨known, m, rest, hmounts, by simpa using hknown, by simpa using hm, rfl⟩

variable {s : Scope} {name : String} {entry : Entry}

theorem checkBefore_toTarget :
    checkBefore name entry = checkBefore name (.target entry.toTarget) := by
  cases entry <;> rfl

theorem checkAfter_toTarget :
    checkAfter s name entry = checkAfter s name (.target entry.toTarget) := by
  cases entry <;> rfl

theorem checkBefore_outcome :
    Outcome (fun _ => entry.toTarget.DescribesStage → entry.toTarget.base ≠ none)
      (fun e => entry.toTarget.DescribesStage ∧ entry.toTarget.base = none ∧ e = .missingBase name)
      (checkBefore name entry) := by
  rw [checkBefore_toTarget, ← BuildFile.Target.hasStage_iff]
  generalize entry.toTarget = t
  by_cases h : t.hasStage = true ∧ t.base = none
  · rw [checkBefore, if_pos (by simpa using h)]
    exact .error ⟨h.1, h.2, rfl⟩
  · rw [checkBefore, if_neg (by simpa using h)]
    exact .ok fun hs hb => h ⟨hs, hb⟩

/-- A target must have a stage or dependencies, and its secrets must be
    known. -/
theorem checkAfter_outcome :
    Outcome
      (fun _ => (¬entry.toTarget.DescribesStage → entry.toTarget.dependsOn ≠ []) ∧
        ∀ m ∈ entry.toTarget.secrets.toList, m.id ∈ s.secrets)
      (fun e =>
        (¬entry.toTarget.DescribesStage ∧ entry.toTarget.dependsOn = [] ∧ e = .emptyTarget name) ∨
        ∃ known m rest, entry.toTarget.secrets.toList = known ++ m :: rest ∧
          (∀ k ∈ known, k.id ∈ s.secrets) ∧ m.id ∉ s.secrets ∧
          e = .unknownSecret ⟨.target, name⟩ m.id)
      (checkAfter s name entry) := by
  rw [checkAfter_toTarget, ← BuildFile.Target.hasStage_iff]
  generalize entry.toTarget = t
  cases ht : t.hasStage with
  | true =>
    simp only [checkAfter, ht, if_true, not_true_eq_false, false_implies, true_and, false_and,
      false_or]
    exact checkSecrets_outcome s ⟨.target, name⟩ t.secrets.toList
  | false =>
    -- Secrets would make it a target with a stage.
    have hsecrets : t.secrets.toList = [] := by
      rw [BuildFile.Target.hasStage_eq_false_iff.1 ht]; rfl
    simp only [checkAfter, ht, Bool.false_eq_true, if_false, List.isEmpty_iff, hsecrets,
      not_false_eq_true, true_and, true_implies]
    by_cases hd : t.dependsOn = []
    · rw [if_pos hd]
      exact .error (.inl ⟨hd, rfl⟩)
    · rw [if_neg hd]
      exact .ok ⟨hd, fun _ hm => absurd hm List.not_mem_nil⟩

/-! ### The check of a file -/

variable {file : BuildFile} {secrets : List SecretSource}

theorem Failure.fault {e : Error} (h : Failure (file.scope secrets) e) : Fault file secrets e := by
  cases h with
  | cycle hway hvisits => exact .cycle (hway.transGen (visits_iff.1 hvisits))
  | before hmem hbefore =>
    obtain ⟨hs, hb, rfl⟩ := checkBefore_outcome.of_error hbefore
    exact .base hmem hs hb
  | @unknown _ name target entry done rest _ hmem hedges _ hd =>
    have he : (Edge.dependsOn, target) ∈ edges (file.scope secrets) entry := by
      rw [hedges]; exact List.mem_append_cons_self
    have ht : target ∈ entry.toTarget.dependsOn := by simpa using mem_edges.1 he
    exact .dependency hmem ht hd
  | after _ hmem _ hafter =>
    obtain ⟨hs, hd, rfl⟩ | ⟨known, m, rest, hm, _, hid, rfl⟩ := checkAfter_outcome.of_error hafter
    · exact .empty hmem hs hd
    · refine .targetSecret hmem ?_ hid
      rw [hm]; exact List.mem_append_cons_self

/-- What leads to anything is listed, if all targets are. -/
theorem mem_of_leads {targets : List (String × Entry)} {listed : List String}
    (hall : ∀ t ∈ targets, t.1 ∈ listed) {a b : String} (hl : Leads targets a b) :
    a ∈ listed := by
  obtain ⟨edge, hl⟩ := hl
  obtain ⟨entry, hmem⟩ := hl.declares_left.exists_mem
  exact hall _ hmem

/-- There is no cycle if all targets are checked: their order covers the whole
    graph. -/
theorem Checked.acyclic {checked : List String} (h : Checked s checked)
    (hall : ∀ t ∈ s.targets, t.1 ∈ checked) (name : String) :
    ¬TransGen (Leads s.targets) name name := by
  intro hcycle
  obtain ⟨b, hl, _⟩ := TransGen.head'_iff.1 hcycle
  exact h.irrefl (mem_of_leads hall hl) hcycle

/-- A file of which all has been checked is resolvable. -/
theorem Checked.resolvable {checked : List String} (h : Checked (file.scope secrets) checked)
    (hall : ∀ t ∈ file.targets, t.1 ∈ checked)
    (hversion : file.apiVersion = BuildFile.supportedVersion)
    (htargets : (file.targets.map (·.1)).Nodup) (hvars : (file.vars.map (·.1)).Nodup)
    (hsecrets : ∀ v ∈ file.vars, ∀ m ∈ v.2.secrets.toList, m.id ∈ secrets.map (·.id)) :
    Resolvable file secrets := by
  have hsound : ∀ name entry, (name, entry) ∈ file.targets →
      checkBefore name entry = .ok () ∧ checkAfter (file.scope secrets) name entry = .ok () := by
    intro name entry hmem
    obtain ⟨entry', hmem', hpasses⟩ := h.sound name (hall _ hmem)
    obtain rfl := BuildFile.entry_unique htargets hmem hmem'
    exact hpasses
  refine ⟨hversion, htargets, hvars, ?_, ?_, ?_, ?_, fun name v hmem => hsecrets _ hmem,
    h.acyclic hall⟩
  · exact fun name entry hmem => (checkAfter_outcome.of_ok (hsound _ _ hmem).2).1
  · exact fun name entry hmem => checkBefore_outcome.of_ok (hsound _ _ hmem).1
  · -- What a dependency names is in the order, and thus declared.
    intro name entry hmem target ht
    have hl : Leads file.targets name target := ⟨_, .dependsOn hmem ht⟩
    exact h.declares (h.mem_of_reaches (mem_of_leads hall hl) (.single hl))
  · exact fun name entry hmem => (checkAfter_outcome.of_ok (hsound _ _ hmem).2).2

/-- The definition that the names of a file are replaced in. -/
def resolved (file : BuildFile) (secrets : List SecretSource) : Definition :=
  ⟨file.targets.map (resolveEntry (file.scope secrets)), file.vars.map resolveVar⟩

/-- An order of the declared targets in which each comes after all it leads to. -/
structure Sorted (file : BuildFile) (order : List String) : Prop where
  ordered : Ordered (Leads file.targets) order
  mem_iff : ∀ name, name ∈ order ↔ Declares file.targets name

/-- The variables are looked at last, the first wrong one being reported. -/
theorem checkVars_outcome (file : BuildFile) (secrets : List SecretSource) :
    Outcome (fun _ => ∀ v ∈ file.vars, ∀ m ∈ v.2.secrets.toList, m.id ∈ secrets.map (·.id))
      (Fault file secrets) (file.vars.forM (checkVar (file.scope secrets))) := by
  refine Outcome.forM fun done v rest hl _ => ?_
  have hcheck := checkSecrets_outcome (file.scope secrets) ⟨.var, v.1⟩ v.2.secrets.toList
  refine hcheck.imp_error ?_
  rintro _ ⟨known, m, unknown, hm, _, hid, rfl⟩
  have hv : v ∈ file.vars := by rw [hl]; exact List.mem_append_cons_self
  refine .varSecret hv ?_ hid
  rw [hm]; exact List.mem_append_cons_self

/-- Resolution finds a fault, or else there is none, the targets can be sorted,
    and all names are replaced. -/
theorem resolve_outcome (file : BuildFile) (secrets : List SecretSource) :
    Outcome
      (fun d => d = resolved file secrets ∧ Resolvable file secrets ∧ ∃ order, Sorted file order)
      (Fault file secrets) (file.resolve secrets) := by
  unfold BuildFile.resolve
  by_cases hversion : file.apiVersion = BuildFile.supportedVersion
  · rw [if_neg (not_not.2 hversion)]
    refine ((checkUnique_outcome .target _).imp_error ?_).bind fun _ htargets => ?_
    · rintro _ ⟨name, hd, rfl⟩
      exact .targetName hd
    refine ((checkUnique_outcome .var _).imp_error ?_).bind fun _ hvars => ?_
    · rintro _ ⟨name, hd, rfl⟩
      exact .varName hd
    have hcheck := checkAll_outcome (s := file.scope secrets) htargets
    refine (hcheck.imp_error fun _ => Failure.fault).bind fun checked hchecked => ?_
    refine (checkVars_outcome file secrets).bind fun _ hsecrets => ?_
    refine .ok ⟨rfl, hchecked.1.resolvable hchecked.2 hversion htargets hvars hsecrets,
      checked.reverse, hchecked.1.ordered, fun name => ⟨fun hn => ?_, fun hn => ?_⟩⟩
    · exact hchecked.1.declares (List.mem_reverse.1 hn)
    · obtain ⟨entry, hmem⟩ := hn.exists_mem
      exact List.mem_reverse.2 (hchecked.2 _ hmem)
  · rw [if_pos hversion]
    exact .error (.version hversion)

end Resolution

end ContainerBuild
