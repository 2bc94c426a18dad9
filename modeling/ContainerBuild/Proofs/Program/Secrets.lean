import ContainerBuild.Proofs.BuildFile.RoundTrip
import ContainerBuild.Proofs.Build.Secrets
import ContainerBuild.Proofs.Program.Settings

/-!
# The secrets of a run

A run that builds something expands the paths of the configured secrets and resolves
the build file against them. If that goes well the builder takes over, and with every
document it is handed the secrets of the configuration, in their order and with paths
expanded (`SecretSource.ExpandsTo`), among them all that the document mounts
(`run_build_hands`).
-/

namespace ContainerBuild

/-- A secret of which only the path may differ, which is expanded. -/
structure SecretSource.ExpandsTo (e : Environment) (s s' : SecretSource) : Prop where
  id : s'.id = s.id
  path : expandPath e s.path = .ok s'.path

theorem Config.expandsTo_of_expandedSecrets {c : Config} {e : Environment}
    {secrets : List SecretSource} (h : c.expandedSecrets e = .ok secrets) :
    List.Forall₂ (SecretSource.ExpandsTo e) c.secrets secrets := by
  have hexpand : ∀ s : SecretSource,
      Outcome (s.ExpandsTo e) (fun _ => True) (s.expand e) := by
    intro s
    rw [SecretSource.expand]
    cases hpath : expandPath e s.path with
    | ok path => exact .ok ⟨rfl, hpath⟩
    | error name => exact .error trivial
  exact (Outcome.mapM fun s _ => hexpand s).of_ok h

namespace Program

variable {σ : Type} (h : Docker.Host σ) {e : Environment} {words : List String} {i : Invocation}
  {r : BuildRequest} {s : Session σ} {c : Config} {path : String} {d : Definition}
  {secrets : List SecretSource}

/-- The definition in the build file at a path of a session. -/
def definitionAt (e : Environment) (c : Config) (path : String) (s : Session σ) :
    Except Error Definition := do
  let secrets ← c.expandedSecrets e
  let file ← BuildFile.loadFile path (s.files.read? path)
  file.resolve secrets

/-- A definition is loaded without a change of the session. -/
theorem loadDefinition_run (e : Environment) (c : Config) (path : String) (s : Session σ) :
    (loadDefinition e c path).run s = (definitionAt e c path s, s) := by
  rw [loadDefinition, run_bind, ofExcept_run, definitionAt]
  rcases c.expandedSecrets e with error | secrets
  · rfl
  dsimp only
  rw [run_bind, files_run]
  dsimp only
  rw [run_bind, ofExcept_run]
  rcases BuildFile.loadFile path (s.files.read? path) with error | file
  · rfl
  · exact ofExcept_run _ s

/-- The definition was resolved against the expanded secrets. -/
theorem exists_of_definitionAt (hd : definitionAt e c path s = .ok d) :
    ∃ secrets file, c.expandedSecrets e = .ok secrets ∧
      BuildFile.resolve file secrets = .ok d := by
  obtain ⟨secrets, hs, hd⟩ := exists_of_bind_eq_ok hd
  obtain ⟨file, -, hd⟩ := exists_of_bind_eq_ok hd
  exact ⟨secrets, file, hs, hd⟩

/-- With a definition the builder takes over, and in the end it is told what was built. -/
theorem buildTargets_run (hd : definitionAt e c path s = .ok d)
    (hs : c.expandedSecrets e = .ok secrets) :
    (buildTargets h e c path r).run s =
      match d.runBuild (buildContext h e c secrets r.showVars) r.targets
        (r.forcePull || c.builder.forcePull) s with
      | (.ok (), p) =>
        (.ok (), p.state.tell (Status.doneWith "Build finished" (builtText r.targets)).render)
      | (.error error, p) => (.error error, p.state) := by
  rw [buildTargets, run_bind, loadDefinition_run, hd]
  dsimp only
  rw [run_bind, ofExcept_run, hs]
  dsimp only
  rw [run_bind, act_run]
  rcases d.runBuild (buildContext h e c secrets r.showVars) r.targets
    (r.forcePull || c.builder.forcePull) s with ⟨_ | _, p⟩ <;> rfl

/-- An error of the builder, and the end of a build, are only told. -/
theorem exists_ended_buildTargets (hd : definitionAt e c path s = .ok d)
    (hs : c.expandedSecrets e = .ok secrets) :
    ∃ exit console, ended ((buildTargets h e c path r).run s) =
      (exit, { (d.runBuild (buildContext h e c secrets r.showVars) r.targets
        (r.forcePull || c.builder.forcePull) s).2.state with console }) := by
  rw [buildTargets_run h hd hs]
  rcases d.runBuild (buildContext h e c secrets r.showVars) r.targets
    (r.forcePull || c.builder.forcePull) s with ⟨error | _, p⟩
  · refine ⟨exitFailure, (tellError p.state error).console, congrArg (exitFailure, ·) ?_⟩
    rw [tellError]
    cases error.hint? <;> rfl
  · exact ⟨exitSuccess, _, rfl⟩

theorem override_expandedSecrets (i : Invocation) (c : Config) (e : Environment) :
    (override i c).expandedSecrets e = c.expandedSecrets e := by
  rw [override]
  cases i.clientConfig <;> rfl

theorem override_forcePull (i : Invocation) (c : Config) :
    (override i c).builder.forcePull = c.builder.forcePull := by
  rw [override]
  cases i.clientConfig <;> rfl

/-- A run that builds. If there is no definition to build, nothing is done but that an
    error is told. Otherwise the run is a dialogue with the builder, and what is told
    at its end; whenever a document is handed to the builder, so are the configured
    secrets, in their order and with nothing but their paths expanded, and they
    include every secret that a stage of the document mounts. -/
theorem run_build_hands (hi : CommandLine.parse e words = .ok i)
    (hbuild : i.action = .build r) (hinspection : r.inspection = none)
    (hload : ((loadConfig (configPath e i)).run s).1 = .ok c) :
    (∀ error, ((loadDefinition e (override i c) (r.definition.getD defaultDefinition)).run s).1 =
        .error error → run h e words s = (exitFailure, tellError s error)) ∧
    (∀ d, ((loadDefinition e (override i c) (r.definition.getD defaultDefinition)).run s).1 =
        .ok d → ∃ secrets progress es exit console,
      d.runBuild (buildContext h e (override i c) secrets r.showVars) r.targets
        (r.forcePull || c.builder.forcePull) s = progress ∧
      run h e words s = (exit, { progress.2.state with console }) ∧
      Dialogue (buildContext h e (override i c) secrets r.showVars) s es progress.2.state ∧
      progress.2.calls = es.map (·.call) ∧
      c.expandedSecrets e = .ok secrets ∧
      List.Forall₂ (SecretSource.ExpandsTo e) c.secrets secrets ∧
      ∀ x ∈ es, ∀ document forwarded, x.call.Hands document forwarded →
        forwarded = secrets ∧ ∀ id, document.Mounts id → id ∈ forwarded.map (·.id)) := by
  have hrun : run h e words s =
      ended ((buildTargets h e (override i c) (r.definition.getD defaultDefinition) r).run s) := by
    rw [run_of_loadConfig h hi (by rw [perform, hbuild]) hload, build, hinspection]
  rw [loadDefinition_run]
  refine ⟨fun error (herror : definitionAt _ _ _ _ = _) => ?_,
    fun d (hd : definitionAt _ _ _ _ = _) => ?_⟩
  · rw [hrun, buildTargets, run_bind, loadDefinition_run, herror]
    rfl
  · obtain ⟨secrets, file, hs, hresolve⟩ := exists_of_definitionAt hd
    obtain ⟨exit, console, hended⟩ := exists_ended_buildTargets (r := r) h hd hs
    let ctx := buildContext h e (override i c) secrets r.showVars
    have hcontext : file.resolve ctx.secrets = .ok d := hresolve
    obtain ⟨es, hdialogue, hcalls, hhands⟩ :=
      exists_dialogue_runBuild hcontext r.targets (r.forcePull || c.builder.forcePull) s
    rw [override_forcePull] at hended
    rw [override_expandedSecrets] at hs
    exact ⟨secrets, _, es, exit, console, rfl, hrun.trans hended, hdialogue, hcalls, hs,
      Config.expandsTo_of_expandedSecrets hs, hhands⟩

/-- A configuration with secrets in a directory that the environment names, and at home. -/
def keyed : Config where
  secrets := [⟨"npm", "$TOKENS/npm"⟩, ⟨"git", "~/git"⟩]

/-- An environment with that directory. -/
def tokens : Environment where
  entries := [("TOKENS", "/tokens"), ("HOME", "/home/u")]

/-- The secrets in that environment. -/
def keyedSecrets : List SecretSource :=
  [⟨"npm", "/tokens/npm"⟩, ⟨"git", "/home/u/git"⟩]

/-- A target and a variable that need a secret each. -/
def keyedFile : BuildFile where
  apiVersion := BuildFile.supportedVersion
  targets := [("all", .target
    { base := some "node", command := some "npm ci", secrets := .one ⟨"npm", "/npm"⟩ })]
  vars := [("TAG", { base := "node", command := "git tag", secrets := .one ⟨"git", "/git"⟩ })]

/-- The text of that build file. -/
def keyedText : String :=
  "\x7b\"apiVersion\":\"kiln/v1\",\"targets\":\x7b\"all\":\x7b\"from\":\"node\"," ++
  "\"command\":\"npm ci\",\"secret\":\x7b\"id\":\"npm\",\"path\":\"/npm\"\x7d\x7d\x7d," ++
  "\"vars\":\x7b\"TAG\":\x7b\"from\":\"node\",\"command\":\"git tag\"," ++
  "\"secrets\":\x7b\"id\":\"git\",\"path\":\"/git\"\x7d\x7d\x7d\x7d"

/-- A session with files of both. -/
def keyedSession : Session Unit where
  host := ()
  files := { entries := [
    (["config.toml"], .file (Text.Utf8.encode keyed.render)),
    (["kiln.json"], .file (Text.Utf8.encode keyedText))] }

/-- A host on which every command succeeds, with the transcript of one that prints a
    version. -/
def transcribing : Docker.Host Unit where
  launch _ s :=
    (.ran { stderr := Text.Utf8.encode "#5 [1/1] RUN tag\n#5 2c5e\n#5 0.1 v1\n#5 DONE 0.1s\n" }, s)
  echo _ s := s
  cancelled _ := false

theorem run_build_hands_keyed :
    ∃ (d : Definition) (es : List (Exchange (Session Unit))) (exit : Nat) (console : Console),
      ((loadDefinition tokens keyed "kiln.json").run keyedSession).1 = .ok d ∧
      run transcribing tokens ["-c", "config.toml", "build"] keyedSession =
        (exit, { (d.runBuild (buildContext transcribing tokens keyed keyedSecrets false) [] false
          keyedSession).2.state with console }) ∧
      (∃ x ∈ es, ∃ document, x.call.Hands document keyedSecrets ∧ document.Mounts "npm") ∧
      ∀ x ∈ es, ∀ document forwarded, x.call.Hands document forwarded →
        forwarded = keyedSecrets ∧ ∀ id, document.Mounts id → id ∈ forwarded.map (·.id) := by
  let i : Invocation := { config := some "config.toml", action := .build {} }
  let d := Resolution.resolved keyedFile keyedSecrets
  let document := d.document d.vertices[0] ⟨[("TAG", "v1")]⟩ "docker/dockerfile:1.4"
  have hi : CommandLine.parse tokens ["-c", "config.toml", "build"] = .ok i := by rfl
  have hload : ((loadConfig "config.toml").run keyedSession).1 = .ok keyed := by
    have hreread : keyed.Reread := by decide +kernel
    rw [loadConfig_run, if_pos (by decide)]
    exact hreread.loadFile _
  have hd : ((loadDefinition tokens keyed "kiln.json").run keyedSession).1 = .ok d := by
    have hread : keyedSession.files.read? "kiln.json" = some (Text.Utf8.encode keyedText) := rfl
    have hfile : BuildFile.loadText "kiln.json" keyedText = .ok keyedFile := by decide +kernel
    rw [loadDefinition_run, definitionAt, hread, BuildFile.loadFile_encode, hfile]
    decide +kernel
  have hcall : .build document { stage := "all", secrets := keyedSecrets } ∈
      (d.runBuild (buildContext transcribing tokens keyed keyedSecrets false) [] false
        keyedSession).2.calls := by decide +kernel
  have hmounts : document.Mounts "npm" :=
    ⟨document.stages[0], by decide, ⟨[.secret "npm" "/npm" false], none, "npm ci"⟩, by decide,
      "/npm", false, by decide⟩
  obtain ⟨secrets, _, es, exit, console, rfl, hrun, _, hcalls, hsecrets, _, hhands⟩ :=
    (run_build_hands transcribing hi rfl rfl hload).2 d hd
  have hkeyed : keyed.expandedSecrets tokens = .ok keyedSecrets := by decide +kernel
  obtain rfl : secrets = keyedSecrets := Except.ok.inj (hsecrets.symm.trans hkeyed)
  obtain ⟨x, hx, hxcall⟩ := List.mem_map.1 (hcalls ▸ hcall)
  exact ⟨d, es, exit, console, hd, hrun,
    ⟨x, hx, document, by rw [hxcall]; exact .build, hmounts⟩, hhands⟩

end Program

end ContainerBuild
