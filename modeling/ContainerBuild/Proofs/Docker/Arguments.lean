import ContainerBuild.Docker.Client
import Mathlib.Data.List.Forall2

/-!
# What the arguments of a build say

A request is known from the arguments that the client gets for it, but for its secrets
(`Client.buildArguments_eq_iff`). The id and the path of a secret are written into one
argument, `id=<id>,src=<path>`, and nothing in them is quoted, so a mark `,src=` within
them may be taken for the one between them: `id=a,src=b,src=c` hands over the file
`b,src=c` as `a`, or the file `c` as `a,src=b` (`SameWords`). Where no id has the mark,
all is known.
-/

namespace ContainerBuild.Docker

/-- What stands between the id of a secret and its path. -/
def sourceMark : List Char := [',', 's', 'r', 'c', '=']

/-- Two secrets that are written alike: the same ones, or one of which the id goes on where
    the path of the other begins. -/
inductive SameWords : SecretSource → SecretSource → Prop
  | refl (s : SecretSource) : SameWords s s
  | longer (id middle path : String) :
    SameWords ⟨id, middle ++ ",src=" ++ path⟩ ⟨id ++ ",src=" ++ middle, path⟩
  | shorter (id middle path : String) :
    SameWords ⟨id ++ ",src=" ++ middle, path⟩ ⟨id, middle ++ ",src=" ++ path⟩

/-! ### Secrets -/

/-- Two marks in one text do not overlap. -/
theorem mark_append_eq {rest before after : List Char}
    (h : sourceMark ++ rest = before ++ (sourceMark ++ after)) :
    before = [] ∧ rest = after ∨
      ∃ middle, before = sourceMark ++ middle ∧ rest = middle ++ (sourceMark ++ after) := by
  rcases before with _ | ⟨c₁, _ | ⟨c₂, _ | ⟨c₃, _ | ⟨c₄, _ | ⟨c₅, middle⟩⟩⟩⟩⟩
  · exact .inl ⟨rfl, List.append_cancel_left h⟩
  -- Within the mark there is no comma with which another one could begin.
  · simp [sourceMark] at h
  · simp [sourceMark] at h
  · simp [sourceMark] at h
  · simp [sourceMark] at h
  · simp only [sourceMark, List.cons_append, List.nil_append, List.cons.injEq] at h
    obtain ⟨rfl, rfl, rfl, rfl, rfl, rfl⟩ := h
    exact .inr ⟨middle, rfl, rfl⟩

/-- The id and the path of a secret behind each other. -/
def sourceText (s : SecretSource) : List Char :=
  s.id.toList ++ (sourceMark ++ s.path.toList)

theorem SameWords.symm {s s' : SecretSource} (h : SameWords s s') : SameWords s' s := by
  cases h with
  | refl => exact .refl s
  | longer => exact .shorter _ _ _
  | shorter => exact .longer _ _ _

/-- Of two secrets with the same text, the one with the longer id has the other's and a
    part of its path in it. -/
theorem sameWords_of_append {s s' : SecretSource} {rest : List Char}
    (hid : s'.id.toList = s.id.toList ++ rest)
    (hrest : sourceMark ++ s.path.toList = rest ++ (sourceMark ++ s'.path.toList)) :
    SameWords s s' := by
  obtain ⟨id, path⟩ := s
  obtain ⟨id', path'⟩ := s'
  rcases mark_append_eq hrest with ⟨rfl, hpath⟩ | ⟨middle, rfl, hpath⟩
  · rw [List.append_nil, String.toList_inj] at hid
    rw [String.toList_inj] at hpath
    obtain rfl : id' = id := hid
    obtain rfl : path = path' := hpath
    exact .refl _
  · obtain rfl : id' = id ++ ",src=" ++ String.ofList middle := by
      rw [← String.toList_inj, hid]
      simp [sourceMark]
    obtain rfl : path = String.ofList middle ++ ",src=" ++ path' := by
      rw [← String.toList_inj, hpath]
      simp [sourceMark]
    exact .longer _ _ _

theorem sourceText_eq_iff {s s' : SecretSource} :
    sourceText s = sourceText s' ↔ SameWords s s' := by
  constructor
  · intro h
    rcases List.append_eq_append_iff.1 h with ⟨rest, hid, hpath⟩ | ⟨rest, hid, hpath⟩
    · exact sameWords_of_append hid hpath
    · exact (sameWords_of_append hid hpath).symm
  · intro h
    cases h with
    | refl => rfl
    | longer => simp [sourceText, sourceMark]
    | shorter => simp [sourceText, sourceMark]

/-- Without a mark in its id a secret is known from its text. -/
theorem SameWords.eq {s s' : SecretSource} (h : SameWords s s')
    (hs : ¬sourceMark <:+: s.id.toList) (hs' : ¬sourceMark <:+: s'.id.toList) : s = s' := by
  have hmark : ∀ id middle : String, sourceMark <:+: (id ++ ",src=" ++ middle).toList :=
    fun id middle => ⟨id.toList, middle.toList, by simp [sourceMark]⟩
  cases h with
  | refl => rfl
  | longer id middle => exact absurd (hmark id middle) hs'
  | shorter id middle => exact absurd (hmark id middle) hs

theorem eq_of_forall₂_sameWords {secrets secrets' : List SecretSource}
    (h : List.Forall₂ SameWords secrets secrets')
    (hs : ∀ s ∈ secrets, ¬sourceMark <:+: s.id.toList)
    (hs' : ∀ s ∈ secrets', ¬sourceMark <:+: s.id.toList) : secrets = secrets' := by
  induction h with
  | nil => rfl
  | cons hsame _ ih =>
    rw [List.forall_mem_cons] at hs hs'
    rw [hsame.eq hs.1 hs'.1, ih hs.2 hs'.2]

namespace Client

/-- A secret is known from its arguments as far as from its text. -/
theorem secretArguments_eq_iff {s s' : SecretSource} :
    secretArguments s = secretArguments s' ↔ SameWords s s' := by
  have htext : ∀ s : SecretSource,
      ("id=" ++ s.id ++ ",src=" ++ s.path).toList = "id=".toList ++ sourceText s := by
    intro s
    simp [sourceText, sourceMark]
  rw [← sourceText_eq_iff, secretArguments, secretArguments, List.cons_inj_right,
    List.singleton_inj, ← String.toList_inj, htext, htext, List.append_cancel_left_eq]

/-! ### Requests -/

/-- The arguments of a build behind those that hand over secrets. -/
def stageArguments (r : StageRequest) : List String :=
  ["--target", r.stage] ++ outputArguments r.output ++ documentArguments

theorem stageArguments_eq_iff {r r' : StageRequest} :
    stageArguments r = stageArguments r' ↔ r.stage = r'.stage ∧ r.output = r'.output := by
  constructor
  · intro h
    obtain ⟨hstage, h⟩ := List.cons.inj (List.cons.inj h).2
    refine ⟨hstage, ?_⟩
    -- The option that begins the output is none of those behind it.
    cases hr : r.output <;> cases hr' : r'.output <;>
      simp_all [outputArguments, documentArguments]
  · rintro ⟨hstage, houtput⟩
    rw [stageArguments, stageArguments, hstage, houtput]

/-- The secrets end where the stage is named. -/
theorem secrets_append_eq_iff {secrets secrets' : List SecretSource} {r r' : StageRequest} :
    secrets.flatMap secretArguments ++ stageArguments r =
        secrets'.flatMap secretArguments ++ stageArguments r' ↔
      List.Forall₂ SameWords secrets secrets' ∧ stageArguments r = stageArguments r' := by
  induction secrets generalizing secrets' with
  | nil =>
    cases secrets' with
    | nil => simp
    | cons s' secrets' => simp [stageArguments, secretArguments]
  | cons s secrets ih =>
    cases secrets' with
    | nil => simp [stageArguments, secretArguments]
    | cons s' secrets' =>
      have hlength : (secretArguments s).length = (secretArguments s').length := rfl
      rw [List.flatMap_cons, List.flatMap_cons, List.append_assoc, List.append_assoc,
        List.forall₂_cons, ← secretArguments_eq_iff, and_assoc, ← ih]
      constructor
      · exact fun h => List.append_inj h hlength
      · rintro ⟨hs, hrest⟩
        rw [hs, hrest]

/-- So does the agent, which stands before them. -/
theorem access_append_eq_iff {r r' : StageRequest} :
    accessArguments r.sshAgent r.secrets ++ stageArguments r =
        accessArguments r'.sshAgent r'.secrets ++ stageArguments r' ↔
      r.sshAgent = r'.sshAgent ∧ List.Forall₂ SameWords r.secrets r'.secrets ∧
        stageArguments r = stageArguments r' := by
  rw [← secrets_append_eq_iff, accessArguments, accessArguments, List.append_assoc,
    List.append_assoc]
  have hsecrets : ∀ (secrets : List SecretSource) (r : StageRequest) (agent : String)
      (rest : List String), secrets.flatMap secretArguments ++ stageArguments r ≠
        "--ssh" :: agent :: rest := by
    intro secrets r agent rest
    cases secrets <;> simp [stageArguments, secretArguments]
  cases r.sshAgent with
  | none =>
    cases r'.sshAgent with
    | none => simp [agentArguments]
    | some agent' => simp [agentArguments, hsecrets]
  | some agent =>
    cases r'.sshAgent with
    | none => simp [agentArguments, (hsecrets _ _ _ _).symm]
    | some agent' => simp [agentArguments, String.append_right_inj]

/-- A request is known from the arguments of its build, but for secrets that are written
    alike. In particular all is known if no id of a secret has the mark before its path. -/
theorem buildArguments_eq_iff (client : Client) :
    (∀ r r' : StageRequest, client.buildArguments r = client.buildArguments r' ↔
      r.stage = r'.stage ∧ r.sshAgent = r'.sshAgent ∧ r.output = r'.output ∧
        List.Forall₂ SameWords r.secrets r'.secrets) ∧
    (∀ s s', secretArguments s = secretArguments s' ↔ SameWords s s') ∧
    (∀ s s' : SecretSource, ¬",src=".toList <:+: s.id.toList →
      ¬",src=".toList <:+: s'.id.toList → secretArguments s = secretArguments s' → s = s') ∧
    ∀ r r' : StageRequest, (∀ s ∈ r.secrets ++ r'.secrets, ¬",src=".toList <:+: s.id.toList) →
      r ≠ r' → client.buildArguments r ≠ client.buildArguments r' := by
  have hiff : ∀ r r' : StageRequest, client.buildArguments r = client.buildArguments r' ↔
      r.stage = r'.stage ∧ r.sshAgent = r'.sshAgent ∧ r.output = r'.output ∧
        List.Forall₂ SameWords r.secrets r'.secrets := by
    intro r r'
    have harguments : ∀ r, client.buildArguments r = (client.commonArguments ++
        ["builder", "build"]) ++ (accessArguments r.sshAgent r.secrets ++ stageArguments r) := by
      intro r
      simp only [buildArguments, stageArguments, List.append_assoc]
    rw [harguments, harguments, List.append_cancel_left_eq, access_append_eq_iff,
      stageArguments_eq_iff]
    tauto
  refine ⟨hiff, fun s s' => secretArguments_eq_iff,
    fun s s' hs hs' h => (secretArguments_eq_iff.1 h).eq hs hs', fun r r' hids hne h => hne ?_⟩
  obtain ⟨hstage, hagent, houtput, hsecrets⟩ := (hiff r r').1 h
  rw [List.forall_mem_append] at hids
  have heq : r.secrets = r'.secrets := eq_of_forall₂_sameWords hsecrets hids.1 hids.2
  cases r
  cases r'
  simp_all

/-- A build with a secret. -/
def secretBuild (id path : String) : StageRequest where
  stage := "app-out"
  secrets := [⟨id, path⟩]
  output := some "./bin"

theorem buildArguments_eq_iff_npmrc :
    (∀ s ∈ (secretBuild "npmrc" "/a").secrets ++ (secretBuild "npmrc" "/b,src=/a").secrets,
      ¬",src=".toList <:+: s.id.toList) ∧
    Client.buildArguments ⟨"docker", some "/ci"⟩ (secretBuild "npmrc" "/a") ≠
      Client.buildArguments ⟨"docker", some "/ci"⟩ (secretBuild "npmrc" "/b,src=/a") := by
  have hids : ∀ s ∈ (secretBuild "npmrc" "/a").secrets ++
      (secretBuild "npmrc" "/b,src=/a").secrets, ¬",src=".toList <:+: s.id.toList := by
    decide +kernel
  exact ⟨hids, (buildArguments_eq_iff ⟨"docker", some "/ci"⟩).2.2.2 _ _ hids (by decide +kernel)⟩

/-- Different requests may get the same arguments. -/
theorem not_injective_buildArguments :
    ¬∀ (client : Client) (r r' : StageRequest),
      r ≠ r' → client.buildArguments r ≠ client.buildArguments r' := by
  intro h
  exact h ⟨"docker", none⟩ (secretBuild "a" "b,src=c") (secretBuild "a,src=b" "c")
    (by decide +kernel) (by decide +kernel)

end Client

end ContainerBuild.Docker
