import ContainerBuild.Proofs.Files.Tree
import ContainerBuild.Proofs.Program.Runs
import ContainerBuild.Proofs.Text.Utf8

/-!
# Changing a setting

The configuration is read, one setting of it is changed (`Config.Changed`), and
all of it is written again.

What is read afterwards is the configuration as it was with the setting changed,
unless the command line names a directory for the client's configuration: that
directory is written as well (`run_change_iff`). A name or a value without a
meaning leaves all files alone.

That reading undoes writing is left open here (`Config.Reread`), because it is a
matter of the TOML text.
-/

namespace ContainerBuild

namespace Config

variable {c c' : Config} {name value path : String}

/-! ### Settings -/

/-- One setting of a configuration is changed, the one of a name, to what a value
    means for it. -/
inductive Changed (c : Config) (name value : String) : Config → Prop
  | executable : name = "builder.executable" →
    Changed c name value { c with builder.executable := value }
  | frontend : name = "builder.syntax_image" →
    Changed c name value { c with builder.frontend := value }
  | clientConfig : name = "builder.docker_config" → value ≠ "" →
    Changed c name value { c with builder.clientConfig := some value }
  | noClientConfig : name = "builder.docker_config" → value = "" →
    Changed c name value { c with builder.clientConfig := none }
  | forcePull {b : Bool} : name = "builder.force_pull" → boolean? value = some b →
    Changed c name value { c with builder.forcePull := b }

theorem changed_of_change {setting : Setting} (h : c.change value setting = .ok c') :
    c.Changed setting.name value c' := by
  cases setting with
  | executable =>
    obtain rfl := Except.ok.inj h
    exact .executable rfl
  | frontend =>
    obtain rfl := Except.ok.inj h
    exact .frontend rfl
  | clientConfig =>
    obtain rfl := Except.ok.inj h
    split_ifs with hempty
    · exact .noClientConfig rfl (String.isEmpty_iff.1 hempty)
    · exact .clientConfig rfl (mt String.isEmpty_iff.2 hempty)
  | forcePull =>
    rw [change] at h
    split at h
    · next hb =>
      obtain rfl := Except.ok.inj h
      exact .forcePull rfl hb
    · cases h

theorem set_eq_ok_iff : c.set name value = .ok c' ↔ c.Changed name value c' := by
  constructor
  · intro h
    rw [set] at h
    split at h
    · next setting hsetting =>
      obtain rfl : setting.name = name :=
        beq_iff_eq.1 (List.find?_some (p := fun x : Setting => x.name == name) hsetting)
      exact changed_of_change h
    · cases h
  · rintro (rfl | rfl | ⟨rfl, hvalue⟩ | ⟨rfl, rfl⟩ | ⟨rfl, hb⟩)
    · rfl
    · rfl
    · change c.change value .clientConfig = _
      rw [change, if_neg (mt String.isEmpty_iff.1 hvalue)]
    · rfl
    · change c.change value .forcePull = _
      rw [change, hb]

theorem Changed.unique {c'' : Config} (h : c.Changed name value c')
    (h' : c.Changed name value c'') : c' = c'' :=
  Except.ok.inj ((set_eq_ok_iff.2 h).symm.trans (set_eq_ok_iff.2 h'))

/-- Whether a name and a value have a meaning does not depend on the configuration. -/
theorem Changed.exists_of (h : c.Changed name value c') (d : Config) :
    ∃ d', d.Changed name value d' := by
  cases h with
  | executable h => exact ⟨_, .executable h⟩
  | frontend h => exact ⟨_, .frontend h⟩
  | clientConfig h hvalue => exact ⟨_, .clientConfig h hvalue⟩
  | noClientConfig h hvalue => exact ⟨_, .noClientConfig h hvalue⟩
  | forcePull h hb => exact ⟨_, .forcePull h hb⟩

/-! ### Reading what has been written -/

/-- What is written of a configuration is read as the configuration again. -/
def Reread (c : Config) : Prop :=
  (Toml.parse? c.render).bind ofToml? = some c

instance (c : Config) : Decidable c.Reread :=
  inferInstanceAs (Decidable (_ = _))

theorem Reread.loadFile (h : c.Reread) (path : String) :
    loadFile path (some (Text.Utf8.encode c.render)) = .ok c := by
  have htext : loadText path c.render = .ok c := by rw [loadText, h]
  rw [Config.loadFile, FileUse.decode_encode]
  exact htext

end Config

namespace Program

open SessionM

variable {σ : Type}

/-! ### Files of a session -/

theorem setFiles_run (files : FileTree) (s : Session σ) :
    (setFiles files).run s = (.ok (), { s with files }) := rfl

/-- What writing a configuration to a path makes of a session. -/
def written (path : String) (c : Config) (s : Session σ) : Except Error Unit × Session σ :=
  match s.files.write? path (Text.Utf8.encode c.render) with
  | some files => (.ok (), { s with files })
  | none => (.error (.fileFailed (.writeConfig path)), s)

theorem saveConfig_run (path : String) (c : Config) (s : Session σ) :
    (saveConfig path c).run s =
      match Path.parent? path with
      | none => written path c s
      | some directory =>
        let (files, made) := s.files.makeDirectories directory
        if made then written path c { s with files }
        else (.error (.configDirectory directory), { s with files }) := by
  have hwrite : ∀ s : Session σ,
      (do
        match (← files).write? path (Text.Utf8.encode c.render) with
        | some files => setFiles files
        | none => throw (.fileFailed (.writeConfig path)) : SessionM σ Unit).run s =
          written path c s := by
    intro s
    rw [run_bind, files_run, written]
    dsimp only
    cases s.files.write? path (Text.Utf8.encode c.render) <;> rfl
  rw [saveConfig]
  cases Path.parent? path with
  | none => exact hwrite s
  | some directory =>
    dsimp only
    rw [run_bind, files_run]
    dsimp only
    rw [run_bind, setFiles_run]
    dsimp only
    split_ifs with hmade
    · exact hwrite _
    · rfl

/-- Directories are made, and then the configuration is written or not. -/
theorem exists_saveConfig_run (path : String) (c : Config) (s : Session σ) :
    ∃ files, s.files.Extends files ∧
      ((saveConfig path c).run s = written path c { s with files } ∨
        ∃ error, (saveConfig path c).run s = (.error error, { s with files })) := by
  rw [saveConfig_run]
  cases Path.parent? path with
  | none => exact ⟨s.files, .refl _, .inl rfl⟩
  | some directory =>
    refine ⟨_, FileTree.extends_makeDirectories directory, ?_⟩
    dsimp only
    split_ifs
    · exact .inl rfl
    · exact .inr ⟨_, rfl⟩

/-- What has been saved at a path is read from it. -/
theorem read?_of_saveConfig {path : String} {c : Config} {s s' : Session σ}
    (h : (saveConfig path c).run s = (.ok (), s')) :
    s'.files.read? path = some (Text.Utf8.encode c.render) := by
  obtain ⟨files, -, hrun | ⟨error, hrun⟩⟩ := exists_saveConfig_run path c s
  · rw [hrun, written] at h
    split at h
    · next hwrite =>
      cases h
      exact FileTree.read?_of_write? hwrite
    · cases h
  · cases hrun.symm.trans h

/-- A configuration that cannot be saved leaves alone what is there. -/
theorem extends_of_saveConfig {path : String} {c : Config} {s s' : Session σ} {e : Error}
    (h : (saveConfig path c).run s = (.error e, s')) : s.files.Extends s'.files := by
  obtain ⟨files, hextends, hrun | ⟨error, hrun⟩⟩ := exists_saveConfig_run path c s
  · rw [hrun, written] at h
    split at h
    · cases h
    · cases h
      exact hextends
  · cases hrun.symm.trans h
    exact hextends

/-! ### What is saved -/

section Override

variable {i : Invocation} {c wanted saved : Config} {name value : String}

/-- What is saved for a configuration that is wanted: it has the directory that the
    command line names, unless the setting of that directory is changed. -/
def saving (i : Invocation) (name : String) (wanted : Config) : Config :=
  if name = "builder.docker_config" then wanted else override i wanted

theorem changed_override (h : c.Changed name value wanted) :
    (override i c).Changed name value (saving i name wanted) := by
  rw [saving, override, override]
  cases h with
  | executable h =>
    rw [if_neg (by rw [h]; decide)]
    cases i.clientConfig <;> exact .executable h
  | frontend h =>
    rw [if_neg (by rw [h]; decide)]
    cases i.clientConfig <;> exact .frontend h
  | clientConfig h hvalue =>
    rw [if_pos h]
    cases i.clientConfig <;> exact .clientConfig h hvalue
  | noClientConfig h hvalue =>
    rw [if_pos h]
    cases i.clientConfig <;> exact .noClientConfig h hvalue
  | forcePull h hb =>
    rw [if_neg (by rw [h]; decide)]
    cases i.clientConfig <;> exact .forcePull h hb

theorem saving_eq_iff (h : c.Changed name value wanted) : saving i name wanted = wanted ↔
    name = "builder.docker_config" ∨ i.clientConfig = none ∨
      i.clientConfig = c.builder.clientConfig := by
  by_cases hname : name = "builder.docker_config"
  · rw [saving, if_pos hname]
    exact ⟨fun _ => .inl hname, fun _ => rfl⟩
  · -- Another setting is changed, so the directory is the one from before.
    have hkept : wanted.builder.clientConfig = c.builder.clientConfig := by
      cases h with
      | clientConfig h => exact absurd h hname
      | noClientConfig h => exact absurd h hname
      | _ => rfl
    rw [saving, if_neg hname, override, ← hkept, or_iff_right hname]
    cases hdirectory : i.clientConfig with
    | none => exact ⟨fun _ => .inl rfl, fun _ => rfl⟩
    | some directory =>
      refine ⟨fun heq => .inr ?_, ?_⟩
      · rw [← heq]
      · rintro (hnone | heq)
        · cases hnone
        · change { wanted with builder.clientConfig := some directory } = wanted
          rw [heq]

end Override

/-! ### Runs -/

theorem changeConfig_run (path : String) (c : Config) (name value : String) (s : Session σ) :
    (changeConfig path c name value).run s =
      match c.set name value with
      | .error e => (.error e, s)
      | .ok changed =>
        match (saveConfig path changed).run s with
        | (.error e, s) => (.error e, s)
        | (.ok (), s) => (.ok (), s.tell (Status.done ("Set " ++ name ++ " = " ++ value)).render) := by
  rw [changeConfig, run_bind]
  cases c.set name value with
  | error e => rfl
  | ok changed =>
    change (saveConfig path changed >>= fun _ => _ : SessionM σ Unit).run s = _
    rw [run_bind]
    dsimp only
    rcases (saveConfig path changed).run s with ⟨_ | _, _⟩ <;> rfl

section Change

variable (h : Docker.Host σ) {e : Environment} {words : List String} {i : Invocation}
  {name value : String} {s : Session σ} {c : Config}

theorem run_change (hi : CommandLine.parse e words = .ok i)
    (hchange : i.action = .config (some (.change name value)))
    (hload : ((loadConfig (configPath e i)).run s).1 = .ok c) :
    run h e words s = ended ((changeConfig (configPath e i) (override i c) name value).run s) :=
  run_of_loadConfig h hi (by rw [perform, hchange]) hload

/-- A name or a value without a meaning ends the run, and no file has changed. -/
theorem run_change_of_meaningless (hi : CommandLine.parse e words = .ok i)
    (hchange : i.action = .config (some (.change name value)))
    (hload : ((loadConfig (configPath e i)).run s).1 = .ok c)
    (hmeaning : ∀ wanted, ¬c.Changed name value wanted) :
    (run h e words s).1 = exitFailure ∧ (run h e words s).2.files = s.files := by
  rw [run_change h hi hchange hload, changeConfig_run]
  cases hset : (override i c).set name value with
  | ok saved =>
    obtain ⟨wanted, hwanted⟩ := (Config.set_eq_ok_iff.1 hset).exists_of c
    exact absurd hwanted (hmeaning wanted)
  | error error => exact ⟨rfl, tellError_files s error⟩

/-- What a meaning leads to is saved and read again, or it cannot be saved. -/
theorem run_change_of_changed {wanted : Config} (hi : CommandLine.parse e words = .ok i)
    (hchange : i.action = .config (some (.change name value)))
    (hload : ((loadConfig (configPath e i)).run s).1 = .ok c)
    (hwanted : c.Changed name value wanted) :
    (run h e words s).1 = exitSuccess ∧ ((saving i name wanted).Reread →
      ((loadConfig (configPath e i)).run (run h e words s).2).1 = .ok (saving i name wanted)) ∨
    (run h e words s).1 = exitFailure ∧ s.files.Extends (run h e words s).2.files := by
  rw [run_change h hi hchange hload, changeConfig_run,
    Config.set_eq_ok_iff.2 (changed_override hwanted)]
  dsimp only
  rcases hsave : (saveConfig (configPath e i) (saving i name wanted)).run s with ⟨error | _, s'⟩
  · refine .inr ⟨rfl, ?_⟩
    change s.files.Extends (tellError s' error).files
    rw [tellError_files]
    exact extends_of_saveConfig hsave
  · refine .inl ⟨rfl, fun hreread => ?_⟩
    have hread : s'.files.read? (configPath e i) =
        some (Text.Utf8.encode (saving i name wanted).render) := read?_of_saveConfig hsave
    rw [loadConfig_run]
    change (if s'.files.hasPath _ then Config.loadFile _ (s'.files.read? _) else _) = _
    rw [if_pos (FileTree.hasPath_of_read? hread), hread]
    exact hreread.loadFile _

/-- A run that changes a setting of the configuration `c`. If it succeeds, the file is
    read as `c` with the setting changed, but for a directory of the client's
    configuration that the command line names: with a setting other than that of
    the directory, it is saved in place of the one of `c`. If the run fails, a file
    that there was is as before, and so are all files if the name or the value has
    no meaning. In a tree of files a write happens as a whole or not at all
    (`FileTree.write?`), which is why a failed run keeps the file. -/
theorem run_change_iff (hi : CommandLine.parse e words = .ok i)
    (hchange : i.action = .config (some (.change name value)))
    (hload : ((loadConfig (configPath e i)).run s).1 = .ok c) :
    ((run h e words s).1 = exitSuccess → ∃ wanted, c.Changed name value wanted ∧
      ((saving i name wanted).Reread →
        ((loadConfig (configPath e i)).run (run h e words s).2).1 = .ok (saving i name wanted)) ∧
      (saving i name wanted = wanted ↔ name = "builder.docker_config" ∨
        i.clientConfig = none ∨ i.clientConfig = c.builder.clientConfig)) ∧
    ((run h e words s).1 ≠ exitSuccess → (run h e words s).1 = exitFailure ∧
      ∀ contents, s.files.read? (configPath e i) = some contents →
        (run h e words s).2.files.read? (configPath e i) = some contents) ∧
    ((∀ wanted, ¬c.Changed name value wanted) →
      (run h e words s).1 = exitFailure ∧ (run h e words s).2.files = s.files) := by
  have hmeaningless := run_change_of_meaningless h hi hchange hload
  by_cases hmeaning : ∃ wanted, c.Changed name value wanted
  · obtain ⟨wanted, hwanted⟩ := hmeaning
    obtain ⟨hexit, hread⟩ | ⟨hexit, hextends⟩ := run_change_of_changed h hi hchange hload hwanted
    · exact ⟨fun _ => ⟨wanted, hwanted, hread, saving_eq_iff hwanted⟩, fun hne => absurd hexit hne,
        hmeaningless⟩
    · refine ⟨fun hsuccess => ?_, fun _ => ⟨hexit, fun _ => hextends.read?⟩, hmeaningless⟩
      cases hexit.symm.trans hsuccess
  · obtain ⟨hexit, hfiles⟩ := hmeaningless (not_exists.1 hmeaning)
    refine ⟨fun hsuccess => ?_, fun _ => ⟨hexit, fun _ hread => ?_⟩, hmeaningless⟩
    · cases hexit.symm.trans hsuccess
    · rw [hfiles]
      exact hread

end Change

/-- A host without any programs. -/
def emptyHost : Docker.Host Unit where
  launch _ s := (.notFound, s)
  echo _ s := s
  cancelled _ := false

/-- An environment that names a directory of the client. -/
def naming : Environment where
  entries := [("KILN_DOCKER_CONFIG", "/ci")]

/-- The words that change a setting. -/
def settingWords (name value : String) : List String :=
  ["-c", "config.toml", "config", "set", name, value]

/-- What they mean in that environment. -/
def changing (name value : String) : Invocation where
  config := some "config.toml"
  clientConfig := some "/ci"
  action := .config (some (.change name value))

/-- A configuration with a secret. -/
def stored : Config where
  builder := { executable := "podman", frontend := "frontend" }
  secrets := [⟨"npm", "/npm"⟩]

/-- A session with a file of that configuration. -/
def storing : Session Unit where
  host := ()
  files := { entries := [(["config.toml"], .file (Text.Utf8.encode stored.render))] }

theorem run_change_iff_stored :
    (run emptyHost naming (settingWords "builder.docker_config" "/etc") storing).1 =
      exitSuccess ∧
    ((loadConfig "config.toml").run
      (run emptyHost naming (settingWords "builder.docker_config" "/etc") storing).2).1 =
        .ok { stored with builder.clientConfig := some "/etc" } := by
  have hi : CommandLine.parse naming (settingWords "builder.docker_config" "/etc") =
      .ok (changing "builder.docker_config" "/etc") := by rfl
  have hload : ((loadConfig "config.toml").run storing).1 = .ok stored := by
    have hreread : stored.Reread := by decide +kernel
    rw [loadConfig_run, if_pos (by decide)]
    exact hreread.loadFile _
  have hexit := congrArg Prod.fst (run_change emptyHost hi rfl hload)
  obtain ⟨wanted, hwanted, hread, -⟩ := (run_change_iff emptyHost hi rfl hload).1 hexit
  obtain rfl := hwanted.unique (.clientConfig rfl (by decide))
  exact ⟨hexit, hread (by decide +kernel)⟩

/-- A session without any files. -/
def fresh : Session Unit where
  host := ()
  files := {}

/-- The directory that the environment names is saved with another setting. -/
theorem not_kept_overridden :
    ((loadConfig "config.toml").run fresh).1 = .ok .default ∧
    (run emptyHost naming (settingWords "builder.executable" "podman") fresh).1 = exitSuccess ∧
    ∀ wanted, Config.Changed .default "builder.executable" "podman" wanted →
      ((loadConfig "config.toml").run
        (run emptyHost naming (settingWords "builder.executable" "podman") fresh).2).1 ≠
          .ok wanted := by
  have hi : CommandLine.parse naming (settingWords "builder.executable" "podman") =
      .ok (changing "builder.executable" "podman") := by rfl
  have hload : ((loadConfig "config.toml").run fresh).1 = .ok .default := by rfl
  have hexit := congrArg Prod.fst (run_change emptyHost hi rfl hload)
  refine ⟨hload, hexit, fun wanted hwanted heq => ?_⟩
  obtain rfl := hwanted.unique (.executable rfl)
  obtain ⟨-, hread⟩ | ⟨hfailed, -⟩ := run_change_of_changed emptyHost hi rfl hload hwanted
  · cases (hread (by decide +kernel)).symm.trans heq
  · cases hexit.symm.trans hfailed

end Program

end ContainerBuild
