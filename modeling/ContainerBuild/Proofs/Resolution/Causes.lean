import ContainerBuild.Proofs.Resolution.Cycles

/-!
# The deepest cause

Of all that is wrong with a build file one thing is reported, and it is the
deepest one on the first way to it. So an error says more than that something is
wrong where it points to: what had to be looked at before is right, with all
that it leads to (`resolve_deepest`).

* The secrets of a target are looked at after everything that the target refers
  to, so if one of them is unknown, nothing is wrong with what the target leads
  to.
* The dependencies of a target are looked at one after the other, after its base
  and the sources of its copies, so the first one that is not declared is
  reported, and nothing is wrong with what comes before it.
* The variables are looked at last.

This is what is known of the targets checked when a check fails (`Failure`):
they are right in themselves, and the list of them is closed under links.
-/

namespace ContainerBuild

open Relation

namespace BuildFile

section

variable (file : BuildFile) (secrets : List SecretSource)

/-- A target is declared and passes all checks of its own. -/
inductive SoundTarget : String → Prop
  | intro {name : String} {entry : Entry} :
    (name, entry) ∈ file.targets →
    (entry.toTarget.DescribesStage → entry.toTarget.base ≠ none) →
    (¬entry.toTarget.DescribesStage → entry.toTarget.dependsOn ≠ []) →
    (∀ target ∈ entry.toTarget.dependsOn, Declares file.targets target) →
    (∀ m ∈ entry.toTarget.secrets.toList, m.id ∈ secrets.map (·.id)) → SoundTarget name

/-- A target and all that it leads to pass their own checks, and no cycle is
    reached from it. -/
structure Settled (name : String) : Prop where
  sound : ∀ u, ReflTransGen (Leads file.targets) name u → SoundTarget file secrets u
  acyclic : ∀ u, ReflTransGen (Leads file.targets) name u → ¬TransGen (Leads file.targets) u u

/-- Of some secrets the first unknown one has the id. -/
def FirstUnknown (mounts : List SecretMount) (id : String) : Prop :=
  ∃ known m rest, mounts = known ++ m :: rest ∧ (∀ k ∈ known, k.id ∈ secrets.map (·.id)) ∧
    m.id = id ∧ id ∉ secrets.map (·.id)

/-- A secret of a target is unknown, the first one of its list, and nothing is
    wrong with what the target leads to. -/
structure TargetSecretReport (target id : String) : Prop where
  first : ∃ entry, (target, entry) ∈ file.targets ∧
    FirstUnknown secrets entry.toTarget.secrets.toList id
  sound : ∀ u, TransGen (Leads file.targets) target u → SoundTarget file secrets u
  acyclic : ∀ u, ReflTransGen (Leads file.targets) target u → ¬TransGen (Leads file.targets) u u

/-- A dependency of a target is not declared, the first one of its list, and
    nothing is wrong with the base, the sources of the copies and the dependencies
    before it, and what they lead to. -/
inductive DependencyReport : String → String → Prop
  | intro {target dependency : String} {entry : Entry} {before after : List String} :
    (target, entry) ∈ file.targets → entry.toTarget.dependsOn = before ++ dependency :: after →
    (∀ x ∈ before, Declares file.targets x) → ¬Declares file.targets dependency →
    (∀ x, Links file.targets .base target x ∨ Links file.targets .copy target x ∨ x ∈ before →
      Settled file secrets x) →
    DependencyReport target dependency

/-- A secret of a variable is unknown, the first one of its list, and without this
    variable and those after it the file is resolved. -/
inductive VarSecretReport : String → String → Prop
  | intro {name id : String} {v : Var} {before after : List (String × Var)} {d : Definition} :
    file.vars = before ++ (name, v) :: after → FirstUnknown secrets v.secrets.toList id →
    ({ file with vars := before } : BuildFile).resolve secrets = .ok d →
    VarSecretReport name id

end

end BuildFile

namespace Resolution

open BuildFile

variable {s : Scope} {file : BuildFile} {secrets : List SecretSource} {checked : List String}
  {name target id : String} {entry : Entry}

/-! ### Checked targets -/

theorem Checked.soundTarget (h : Checked (file.scope secrets) checked) (hn : name ∈ checked) :
    SoundTarget file secrets name := by
  obtain ⟨entry, hmem, hbefore, hafter⟩ := h.sound name hn
  obtain ⟨hnonempty, hsecrets⟩ := checkAfter_outcome.of_ok hafter
  refine .intro hmem (checkBefore_outcome.of_ok hbefore) hnonempty (fun target ht => ?_) hsecrets
  exact h.declares (h.mem_of_reaches hn (.single ⟨_, .dependsOn hmem ht⟩))

theorem Checked.settled (h : Checked (file.scope secrets) checked) (hn : name ∈ checked) :
    Settled file secrets name where
  sound _ hu := h.soundTarget (h.mem_of_reaches hn hu)
  acyclic _ hu := h.irrefl (h.mem_of_reaches hn hu)

/-- What a target leads to is checked if its edges lead to checked targets. -/
theorem Checked.mem_of_edges (h : Checked s checked) (hd : (s.targets.map (·.1)).Nodup)
    (hmem : (name, entry) ∈ s.targets) (hedges : ∀ e ∈ edges s entry, e.2 ∈ checked) {u : String}
    (hu : TransGen (Leads s.targets) name u) : u ∈ checked := by
  obtain ⟨b, ⟨edge, hl⟩, hu⟩ := TransGen.head'_iff.1 hu
  obtain ⟨entry', hmem', he⟩ := links_iff_mem_edges.1 hl
  obtain rfl := entry_unique hd hmem hmem'
  exact h.mem_of_reaches (hedges _ he) hu

/-! ### Edges before a dependency -/

/-- The dependencies of a target are its last edges. -/
theorem exists_edges_eq (s : Scope) (entry : Entry) :
    ∃ others, edges s entry = others ++ entry.toTarget.dependsOn.map (Edge.dependsOn, ·) ∧
      ∀ e ∈ others, e.1 ≠ .dependsOn := by
  rw [edges_toTarget]
  generalize entry.toTarget = t
  simp only [edges]
  split_ifs
  · refine ⟨_, rfl, fun e he => ?_⟩
    rcases List.mem_append.1 he with he | he
    · obtain ⟨_, _, rfl⟩ := List.mem_map.1 he
      exact Edge.noConfusion
    · obtain ⟨_, _, rfl⟩ := List.mem_map.1 he
      exact Edge.noConfusion
  · exact ⟨[], rfl, fun _ he => absurd he List.not_mem_nil⟩

/-- What comes before a dependency: the other edges, and the dependencies before
    it. -/
theorem exists_before_of_edges_eq {done rest : List (Edge × String)}
    (h : edges s entry = done ++ (.dependsOn, target) :: rest) :
    ∃ before after, entry.toTarget.dependsOn = before ++ target :: after ∧
      (∀ x ∈ before, (Edge.dependsOn, x) ∈ done) ∧
      ∀ e ∈ edges s entry, e.1 ≠ .dependsOn → e ∈ done := by
  obtain ⟨others, heq, hothers⟩ := exists_edges_eq s entry
  rw [heq] at h
  -- A dependency is none of the other edges, so all of these come before it.
  obtain ⟨between, rfl, hdeps⟩ : ∃ between, done = others ++ between ∧
      entry.toTarget.dependsOn.map (Edge.dependsOn, ·) =
        between ++ (.dependsOn, target) :: rest := by
    rcases List.append_eq_append_iff.1 h with h | ⟨between, rfl, hrest⟩
    · exact h
    · cases between with
      | nil => exact ⟨[], by rw [List.append_nil, List.append_nil], hrest.symm⟩
      | cons e between =>
        obtain ⟨rfl, _⟩ := List.cons.inj hrest
        exact absurd rfl (hothers _ List.mem_append_cons_self)
  obtain ⟨before, tail, hbefore, rfl, htail⟩ := List.map_eq_append_iff.1 hdeps
  obtain ⟨x, after, rfl, hx, _⟩ := List.map_eq_cons_iff.1 htail
  obtain rfl := (Prod.mk.inj hx).2
  refine ⟨before, after, hbefore, fun y hy => List.mem_append_right _ (List.mem_map_of_mem hy),
    fun e he hne => ?_⟩
  rw [heq] at he
  refine List.mem_append_left _ ((List.mem_append.1 he).resolve_right fun he => hne ?_)
  obtain ⟨_, _, rfl⟩ := List.mem_map.1 he
  rfl

/-! ### Failures -/

theorem Failure.targetSecretReport (hd : (file.targets.map (·.1)).Nodup)
    (h : Failure (file.scope secrets) (.unknownSecret ⟨.target, target⟩ id)) :
    TargetSecretReport file secrets target id := by
  cases h with
  | before _ hbefore =>
    obtain ⟨_, _, he⟩ := checkBefore_outcome.of_error hbefore
    cases he
  | @after checked _ entry _ hchecked hmem hedges hafter =>
    obtain ⟨_, _, he⟩ | ⟨known, m, rest, hm, hknown, hid, he⟩ := checkAfter_outcome.of_error hafter
    · cases he
    · cases he
      have hreached : ∀ u, TransGen (Leads file.targets) target u → u ∈ checked := fun _ hu =>
        hchecked.mem_of_edges hd hmem hedges hu
      refine ⟨⟨entry, hmem, known, m, rest, hm, hknown, rfl, hid⟩,
        fun u hu => hchecked.soundTarget (hreached u hu), fun u hu hcycle => ?_⟩
      -- A cycle through the target itself would make it a checked one.
      exact hchecked.irrefl (hreached u (TransGen.trans_right hu hcycle)) hcycle

theorem Failure.dependencyReport (hd : (file.targets.map (·.1)).Nodup)
    (h : Failure (file.scope secrets) (.unknownDependency name target)) :
    DependencyReport file secrets name target := by
  cases h with
  | before _ hbefore =>
    obtain ⟨_, _, he⟩ := checkBefore_outcome.of_error hbefore
    cases he
  | after _ _ _ hafter =>
    obtain ⟨_, _, he⟩ | ⟨_, _, _, _, _, _, he⟩ := checkAfter_outcome.of_error hafter
    · cases he
    · cases he
  | @unknown checked _ _ entry done rest hchecked hmem hedges hdone hundeclared =>
    obtain ⟨before, after, hdeps, hbefore, hothers⟩ := exists_before_of_edges_eq hedges
    have hlinked : ∀ edge x, Links file.targets edge name x → edge ≠ .dependsOn → x ∈ checked := by
      intro edge x hl hne
      obtain ⟨entry', hmem', he⟩ := (links_iff_mem_edges (s := file.scope secrets)).1 hl
      obtain rfl := entry_unique hd hmem hmem'
      exact hdone _ (hothers _ he hne)
    refine .intro hmem hdeps (fun x hx => hchecked.declares (hdone _ (hbefore x hx))) hundeclared
      fun x hx => ?_
    rcases hx with hl | hl | hx
    · exact hchecked.settled (hlinked _ x hl Edge.noConfusion)
    · exact hchecked.settled (hlinked _ x hl Edge.noConfusion)
    · exact hchecked.settled (hdone _ (hbefore x hx))

/-- A failure that is a secret is one of a target. -/
theorem Failure.kind_eq_target {owner : SecretOwner} (h : Failure s (.unknownSecret owner id)) :
    owner.kind = .target := by
  cases h with
  | before _ hbefore =>
    obtain ⟨_, _, he⟩ := checkBefore_outcome.of_error hbefore
    cases he
  | after _ _ _ hafter =>
    obtain ⟨_, _, he⟩ | ⟨_, _, _, _, _, _, he⟩ := checkAfter_outcome.of_error hafter
    · cases he
    · cases he
      rfl

/-- Variables are checked as if others were not there. -/
theorem resolve_vars_eq (hversion : file.apiVersion = BuildFile.supportedVersion)
    (htargets : (file.targets.map (·.1)).Nodup) {vars : List (String × BuildFile.Var)}
    (hvars : (vars.map (·.1)).Nodup) (hall : checkAll (file.scope secrets) = .ok checked)
    (hchecked : ∀ v ∈ vars, checkVar (file.scope secrets) v = .ok ()) :
    ({ file with vars } : BuildFile).resolve secrets =
      .ok (resolved { file with vars } secrets) := by
  have hresolve : ({ file with vars } : BuildFile).resolve secrets = (do
      let _ ← checkAll (file.scope secrets)
      vars.forM (checkVar (file.scope secrets))
      return resolved { file with vars } secrets) := resolve_eq hversion htargets hvars
  rw [hresolve, hall, forM_eq_ok hchecked]
  rfl

/-- Resolution fails for a target, or for a variable behind targets and variables
    that are resolved. -/
theorem resolve_cause_outcome (secrets : List SecretSource)
    (hversion : file.apiVersion = BuildFile.supportedVersion)
    (htargets : (file.targets.map (·.1)).Nodup) (hvars : (file.vars.map (·.1)).Nodup) :
    Outcome (fun _ => True)
      (fun e => Failure (file.scope secrets) e ∨
        ∃ v id, e = .unknownSecret ⟨.var, v⟩ id ∧ VarSecretReport file secrets v id)
      (file.resolve secrets) := by
  rw [resolve_eq hversion htargets hvars]
  cases hall : checkAll (file.scope secrets) with
  | error e => exact .error (.inl ((checkAll_outcome htargets).of_error hall))
  | ok checked =>
    refine Outcome.bind (P := fun _ => True) (.ok trivial) fun _ _ => ?_
    refine Outcome.bind (P := fun _ => True) ?_ fun _ _ => .ok trivial
    refine (Outcome.forM (P := fun v => checkVar (file.scope secrets) v = .ok ())
      fun done v rest hl hdone => ?_).imp fun _ _ => trivial
    cases hv : checkVar (file.scope secrets) v with
    | ok => exact .ok rfl
    | error e =>
      obtain ⟨known, m, unknown, hm, hknown, hid, rfl⟩ :=
        (checkSecrets_outcome (file.scope secrets) ⟨.var, v.1⟩ v.2.secrets.toList).of_error hv
      have hnames : (done.map (·.1)).Nodup := by
        rw [hl, List.map_append] at hvars
        exact hvars.of_append_left
      exact .error (.inr ⟨v.1, m.id, rfl, .intro hl ⟨known, m, unknown, hm, hknown, rfl, hid⟩
        (resolve_vars_eq hversion htargets hnames hall hdone)⟩)

end Resolution

open BuildFile Resolution

/-- If version and names are in order, the secret or the dependency that is
    reported is a deepest cause: what had to be looked at before it is right, with
    all that it leads to. -/
theorem resolve_deepest (file : BuildFile) (secrets : List SecretSource)
    (hversion : file.apiVersion = supportedVersion)
    (htargets : (file.targets.map (·.1)).Nodup) (hvars : (file.vars.map (·.1)).Nodup) :
    (∀ target id, file.resolve secrets = .error (.unknownSecret ⟨.target, target⟩ id) →
      TargetSecretReport file secrets target id) ∧
    (∀ target dependency, file.resolve secrets = .error (.unknownDependency target dependency) →
      DependencyReport file secrets target dependency) ∧
    ∀ v id, file.resolve secrets = .error (.unknownSecret ⟨.var, v⟩ id) →
      VarSecretReport file secrets v id := by
  have houtcome := resolve_cause_outcome secrets hversion htargets hvars
  refine ⟨fun target id h => ?_, fun target dependency h => ?_, fun v id h => ?_⟩
  · obtain hf | ⟨_, _, he, _⟩ := houtcome.of_error h
    · exact hf.targetSecretReport htargets
    · cases he
  · obtain hf | ⟨_, _, he, _⟩ := houtcome.of_error h
    · exact hf.dependencyReport htargets
    · cases he
  · obtain hf | ⟨_, _, he, hreport⟩ := houtcome.of_error h
    · cases hf.kind_eq_target
    · cases he
      exact hreport

/-- A target on a base, both of which ask for secrets, and a variable that asks for
    one too. -/
def faulty (dependencies : List String) : BuildFile where
  apiVersion := supportedVersion
  targets := [
    ("app", .target {
      base := some "base", dependsOn := dependencies, secrets := .one ⟨"top", "/top"⟩ }),
    ("base", .target {
      base := some "alpine"
      dependsOn := ["lib"]
      secrets := .many [⟨"low", "/low"⟩, ⟨"lower", "/lower"⟩] }),
    ("lib", .target { base := some "alpine" })]
  vars := [
    ("tag", { base := "git", command := "git describe" }),
    ("token", { base := "vault", secrets := .one ⟨"key", "/key"⟩, command := "vault login" })]

/-- Of several faults the one of the base comes before those of the target on it,
    a dependency before the secrets, and the variable last. -/
theorem resolve_deepest_faulty :
    let low : SecretSource := ⟨"low", "/host/low"⟩
    let lower : SecretSource := ⟨"lower", "/host/lower"⟩
    let top : SecretSource := ⟨"top", "/host/top"⟩
    ((faulty ["lib", "nowhere"]).resolve [low] = .error (.unknownSecret ⟨.target, "base"⟩ "lower") ∧
      TargetSecretReport (faulty ["lib", "nowhere"]) [low] "base" "lower") ∧
    ((faulty ["lib", "nowhere"]).resolve [low, lower] =
        .error (.unknownDependency "app" "nowhere") ∧
      DependencyReport (faulty ["lib", "nowhere"]) [low, lower] "app" "nowhere") ∧
    (faulty ["lib"]).resolve [low, lower, top] = .error (.unknownSecret ⟨.var, "token"⟩ "key") ∧
      VarSecretReport (faulty ["lib"]) [low, lower, top] "token" "key" := by
  intro low lower top
  have hsecret : (faulty ["lib", "nowhere"]).resolve [low] =
      .error (.unknownSecret ⟨.target, "base"⟩ "lower") := by rfl
  have hdependency : (faulty ["lib", "nowhere"]).resolve [low, lower] =
      .error (.unknownDependency "app" "nowhere") := by rfl
  have hvar : (faulty ["lib"]).resolve [low, lower, top] =
      .error (.unknownSecret ⟨.var, "token"⟩ "key") := by rfl
  have htargets : ["app", "base", "lib"].Nodup := by decide
  have hvars : ["tag", "token"].Nodup := by decide
  have hfaulty := fun dependencies secrets =>
    resolve_deepest (faulty dependencies) secrets rfl htargets hvars
  exact ⟨⟨hsecret, (hfaulty _ _).1 _ _ hsecret⟩, ⟨hdependency, (hfaulty _ _).2.1 _ _ hdependency⟩,
    hvar, (hfaulty _ _).2.2 _ _ hvar⟩

end ContainerBuild
