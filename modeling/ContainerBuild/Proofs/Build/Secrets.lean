import ContainerBuild.Proofs.Build.Script
import ContainerBuild.Proofs.Dockerfile.Stages

/-!
# The secrets of a build

A call for a value or a stage hands over a document, and with it secrets
(`Call.Hands`). A document may mount secrets, which the builder then finds only
among those that were handed over (`Dockerfile.Document.Mounts`).

The secrets of a document are written in the build file, and resolution lets none
pass that is not declared (`secrets_of_resolve`). What is handed over are all that
are declared, in every call. So every secret that a document mounts comes with it
(`exists_dialogue_runBuild`).
-/

namespace ContainerBuild

open Relation
open Dockerfile (Document Mount mounts)

variable {σ α : Type}

/-- A stage of a document mounts the secret of a name. -/
def Dockerfile.Document.Mounts (document : Document) (id : String) : Prop :=
  ∃ stage ∈ document.stages, ∃ r, .run r ∈ stage.instructions ∧
    ∃ path required, .secret id path required ∈ r.mounts

/-- A call hands over a document and secrets. -/
inductive Call.Hands : Call → Document → List SecretSource → Prop
  | value {document : Document} {request : ValueRequest} :
    Hands (.value document request) document request.secrets
  | build {document : Document} {request : StageRequest} :
    Hands (.build document request) document request.secrets

/-! ### Secrets that are mounted -/

theorem mem_mounts {id path : String} {required required' ssh : Bool} {caches : List CacheMount}
    {secrets : List SecretMount} :
    Mount.secret id path required' ∈ mounts required caches secrets ssh ↔
      ⟨id, path⟩ ∈ secrets ∧ required = required' := by
  have hssh : Mount.secret id path required' ∉ if ssh then [Mount.ssh required] else [] := by
    cases ssh <;> simp
  simp only [mounts, List.mem_append, List.mem_map, hssh, or_false, reduceCtorEq, and_false,
    exists_false, false_or, Mount.secret.injEq]
  constructor
  · rintro ⟨m, hm, rfl, rfl, rfl⟩
    exact ⟨hm, rfl⟩
  · rintro ⟨hm, rfl⟩
    exact ⟨_, hm, rfl, rfl, rfl⟩

theorem not_run_mem_workdirInstructions {r : Dockerfile.Run} {directory : String} :
    .run r ∉ Dockerfile.workdirInstructions directory := by
  rw [Dockerfile.workdirInstructions]
  split <;> simp

theorem not_run_mem_envInstructions {r : Dockerfile.Run} {entries : List (String × String)} :
    .run r ∉ Dockerfile.envInstructions entries := by
  simp [Dockerfile.envInstructions]

/-- Only the command of a variable mounts anything. -/
theorem Var.exists_of_mounts {v : Var} {frontend id : String}
    (h : (v.document frontend).Mounts id) : ∃ m ∈ v.secrets, m.id = id := by
  obtain ⟨stage, hstage, r, hr, path, required, hmount⟩ := h
  obtain rfl := List.mem_singleton.1 hstage
  simp only [Var.instructions, List.mem_append, not_run_mem_workdirInstructions,
    not_run_mem_envInstructions, List.mem_map, reduceCtorEq, and_false, exists_false, false_or,
    List.mem_singleton, Dockerfile.Instruction.run.injEq] at hr
  rw [hr] at hmount
  exact ⟨_, (mem_mounts.1 hmount).1, rfl⟩

namespace Definition

variable {d : Definition} {root v : Vertex} {values : VarValues} {frontend id : String}

/-- What the stages of a target mount is written in its description. -/
theorem exists_of_stagesOf {stage : Dockerfile.Stage} (hstage : stage ∈ d.stagesOf values v)
    {r : Dockerfile.Run} (hr : .run r ∈ stage.instructions) {path : String} {required : Bool}
    (hmount : .secret id path required ∈ r.mounts) :
    ∃ s, v.stage = some s ∧ ∃ m ∈ s.secrets, m.id = id := by
  cases hs : v.stage with
  | none => simp [stagesOf, hs] at hstage
  | some s =>
    simp only [stagesOf, hs, List.mem_cons, List.mem_map] at hstage
    rcases hstage with rfl | ⟨o, -, rfl⟩
    · simp only [instructions, List.mem_append, not_run_mem_workdirInstructions,
        not_run_mem_envInstructions, List.mem_map, reduceCtorEq, and_false, exists_false, false_or,
        Stage.runInstruction, Dockerfile.Instruction.run.injEq] at hr
      obtain ⟨command, -, rfl⟩ := hr
      exact ⟨s, rfl, _, (mem_mounts.1 hmount).1, rfl⟩
    · -- The stage of an output runs nothing.
      simp [Output.stage] at hr

theorem exists_of_mounts (h : (d.document root values frontend).Mounts id) :
    ∃ v ∈ d.emitted root, ∃ s, v.stage = some s ∧ ∃ m ∈ s.secrets, m.id = id := by
  obtain ⟨stage, hstage, r, hr, path, required, hmount⟩ := h
  rw [document_stages_eq] at hstage
  obtain ⟨v, hv, hstage⟩ := List.mem_flatMap.1 hstage
  exact ⟨v, hv, exists_of_stagesOf hstage hr hmount⟩

end Definition

/-! ### Secrets that are declared -/

section Declared

variable {file : BuildFile} {secrets : List SecretSource} {d : Definition}

/-- All secrets of a definition are declared. -/
theorem secrets_of_resolve (h : file.resolve secrets = .ok d) :
    (∀ v ∈ d.vertices, ∀ s, v.stage = some s → ∀ m ∈ s.secrets, m.id ∈ secrets.map (·.id)) ∧
      ∀ v ∈ d.vars, ∀ m ∈ v.secrets, m.id ∈ secrets.map (·.id) := by
  obtain ⟨rfl, hr, -⟩ := (Resolution.resolve_outcome file secrets).of_ok h
  have hrep := Resolution.representedBy_resolved hr
  refine ⟨fun v hv s hs m hm => ?_, fun v hv m hm => ?_⟩
  · obtain ⟨⟨name, entry⟩, hmem, hx⟩ := exists_of_mem_right hrep.vertices hv
    rcases hx with _ | ⟨-, hstage⟩
    · cases hs
    · cases hs
      exact hr.targetSecrets name entry hmem m (hstage.secrets ▸ hm)
  · obtain ⟨⟨name, written⟩, hmem, hx⟩ := exists_of_mem_right hrep.vars hv
    exact hr.varSecrets name written hmem m (hx.secrets ▸ hm)

/-- What the documents of a definition mount is declared. -/
theorem mem_of_mounts (h : file.resolve secrets = .ok d) {root : Vertex} (hroot : d.IsRoot root)
    {values : VarValues} {frontend id : String}
    (hmounts : (d.document root values frontend).Mounts id) : id ∈ secrets.map (·.id) := by
  have hd := BuildFile.wellFormed_of_resolve h
  obtain ⟨v, hv, s, hs, m, hm, rfl⟩ := Definition.exists_of_mounts hmounts
  exact (secrets_of_resolve h).1 v (Definition.mem_of_mem_emitted hd hroot hv) s hs m hm

end Declared

/-! ### Secrets that are handed over -/

/-- A build calls nothing that is not in its script. -/
theorem Course.mem_script {ctx : BuildContext σ} {script : List (Call × Reply)}
    {es : List (Exchange σ)} {result : Except Error α} {s : σ} {x : Exchange σ}
    (h : Course ctx script es result s) (hx : x ∈ es) : ∃ y ∈ script, x.call = y.1 := by
  have hmatch : ∀ {es before}, List.Forall₂ (Exchange.Matches ctx.builder) es before →
      before <+: script → x ∈ es → ∃ y ∈ script, x.call = y.1 := by
    intro es before hes hbefore hx
    obtain ⟨y, hy, hxy⟩ := exists_of_mem_right hes.flip hx
    exact ⟨y, hbefore.subset hy, hxy.1⟩
  rcases h with (hes | ⟨hscript, hes, hcall⟩) | ⟨hscript, hes⟩
  · exact hmatch hes List.prefix_rfl hx
  · rcases List.mem_append.1 hx with hx | hx
    · exact hmatch hes ((List.prefix_append _ _).trans hscript) hx
    · obtain rfl := List.mem_singleton.1 hx
      exact ⟨_, hscript.subset List.mem_append_cons_self, hcall⟩
  · exact hmatch hes ((List.prefix_append _ _).trans hscript) hx

/-- What a script hands over: a document of a variable or of the root, and all
    secrets. -/
theorem Definition.hands_of_mem_script {d : Definition} {ctx : BuildContext σ} {root : Vertex}
    {force : Bool} {present values : List String} {y : Call × Reply}
    (hy : y ∈ d.script ctx root force present values) {document : Document}
    {forwarded : List SecretSource} (h : y.1.Hands document forwarded) :
    forwarded = ctx.secrets ∧ ((∃ v ∈ d.vars, document = v.document ctx.frontend) ∨
      ∃ values, document = d.document root values ctx.frontend) := by
  simp only [script, List.mem_append, List.mem_map] at hy
  rcases hy with hy | hy | ⟨step, -, rfl⟩
  · -- The calls that list and pull images hand over nothing.
    simp only [pullScript] at hy
    split at hy <;> simp only [List.mem_cons, List.mem_map] at hy
    · obtain ⟨image, -, rfl⟩ := hy
      cases h
    · rcases hy with rfl | ⟨image, -, rfl⟩ <;> cases h
  · rw [← List.map_uncurry_zip_eq_zipWith] at hy
    obtain ⟨⟨v, value⟩, hv, rfl⟩ := List.mem_map.1 hy
    cases h
    exact ⟨rfl, .inl ⟨v, (List.of_mem_zip hv).1, rfl⟩⟩
  · cases h
    exact ⟨rfl, .inr ⟨_, rfl⟩⟩

/-- With every document that a build hands over, it hands over all declared secrets, and
    so all that the document mounts. -/
theorem exists_dialogue_runBuild {file : BuildFile} {ctx : BuildContext σ} {d : Definition}
    (h : file.resolve ctx.secrets = .ok d) (requested : List String) (force : Bool) (s : σ) :
    ∃ es, Dialogue ctx s es (d.runBuild ctx requested force s).2.state ∧
      (d.runBuild ctx requested force s).2.calls = es.map (·.call) ∧
      ∀ x ∈ es, ∀ document forwarded, x.call.Hands document forwarded →
        forwarded = ctx.secrets ∧ ∀ id, document.Mounts id → id ∈ forwarded.map (·.id) := by
  cases hroot : d.root requested with
  | error e =>
    rw [runBuild_of_root_error ctx hroot]
    exact ⟨[], .start, rfl, fun _ hx => absurd hx List.not_mem_nil⟩
  | ok root =>
    obtain ⟨present, values, es, -, haccount⟩ := exists_account_build ctx
      (BuildFile.vars_nodup_of_resolve h) hroot force { state := s }
    refine ⟨es, haccount.dialogue, haccount.calls, fun x hx document forwarded hhands => ?_⟩
    obtain ⟨y, hy, hcall⟩ := haccount.course.mem_script hx
    rw [hcall] at hhands
    obtain ⟨rfl, hdocument⟩ := Definition.hands_of_mem_script hy hhands
    refine ⟨rfl, fun id hmounts => ?_⟩
    rcases hdocument with ⟨v, hv, rfl⟩ | ⟨_, rfl⟩
    · obtain ⟨m, hm, rfl⟩ := Var.exists_of_mounts hmounts
      exact (secrets_of_resolve h).2 v hv m hm
    · exact mem_of_mounts h ((d.root_outcome requested).of_ok hroot).isRoot hmounts

end ContainerBuild
