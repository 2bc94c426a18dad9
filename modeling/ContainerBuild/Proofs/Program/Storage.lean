import ContainerBuild.Proofs.Config.Toml
import ContainerBuild.Proofs.Program.Settings

/-!
# Stored configurations

Where one configuration can be saved, every other one can (`exists_saveConfig`), for this
is a matter of files and directories alone. Whichever it is, it is loaded again as it
was, and when it is saved again the same text is written (`loadConfig_of_saveConfig`).
-/

namespace ContainerBuild

/-- Every configuration is read back. -/
theorem Config.reread (c : Config) : c.Reread :=
  parse?_render c

namespace Program

open SessionM

variable {σ : Type}

theorem exists_written {path : String} {c : Config} {s s' : Session σ}
    (h : written path c s = (.ok (), s')) (other : Config) :
    FileTree.Grows s.files s'.files ∧ (∃ s'', written path other s = (.ok (), s'')) ∧
      ∃ s'', written path other s' = (.ok (), s'') := by
  rw [written] at h
  split at h
  · next files hwrite =>
    cases h
    obtain ⟨hgrows, ⟨instead, hinstead⟩, again, hagain⟩ :=
      FileTree.exists_write?_of_write? hwrite (Text.Utf8.encode other.render)
    refine ⟨hgrows, ⟨{ s with files := instead }, ?_⟩, { s with files := again }, ?_⟩
    · rw [written, hinstead]
    · rw [written]
      dsimp only
      rw [hagain]
  · cases h

/-- Where a configuration has been saved, any other one could have been, and can be now. -/
theorem exists_saveConfig {path : String} {c : Config} {s s' : Session σ}
    (h : (saveConfig path c).run s = (.ok (), s')) (other : Config) :
    (∃ s'', (saveConfig path other).run s = (.ok (), s'')) ∧
      ∃ s'', (saveConfig path other).run s' = (.ok (), s'') := by
  rw [saveConfig_run] at h
  rw [saveConfig_run, saveConfig_run]
  cases hparent : Path.parent? path with
  | none =>
    rw [hparent] at h
    exact (exists_written h other).2
  | some directory =>
    rw [hparent] at h
    dsimp only at h ⊢
    by_cases hmade : (s.files.makeDirectories directory).2 = true
    · rw [if_pos hmade] at h ⊢
      obtain ⟨hgrows, hinstead, hagain⟩ := exists_written h other
      rw [FileTree.makeDirectories_of_made hmade hgrows]
      exact ⟨hinstead, hagain⟩
    · rw [if_neg hmade] at h
      cases h

/-- Whatever configuration has been saved at a path, it is loaded from there as it was,
    and saved again as the same text. Any other one could have been saved there too. -/
theorem loadConfig_of_saveConfig (path : String) (c : Config) {s s' : Session σ}
    (h : (saveConfig path c).run s = (.ok (), s')) :
    (loadConfig path).run s' = (.ok c, s') ∧
    (∃ s'', (saveConfig path c).run s' = (.ok (), s'') ∧
      s''.files.read? path = s'.files.read? path ∧
      s''.files.read? path = some (Text.Utf8.encode c.render)) ∧
    ∀ other, ∃ s'', (saveConfig path other).run s = (.ok (), s'') := by
  have hread := read?_of_saveConfig h
  have hload : (loadConfig path).run s' = (.ok c, s') := by
    rw [loadConfig_run, if_pos (FileTree.hasPath_of_read? hread), hread, c.reread.loadFile path]
  obtain ⟨s'', hagain⟩ := (exists_saveConfig h c).2
  have hread' := read?_of_saveConfig hagain
  exact ⟨hload, ⟨s'', hagain, hread'.trans hread.symm, hread'⟩,
    fun other => (exists_saveConfig h other).1⟩

/-- A configuration whose strings are written in all styles. -/
def styled : Config where
  builder :=
    { executable := "say \"docker\"", frontend := "\nit's\\\"\"", clientConfig := some ""
      forcePull := true }
  secrets := [⟨"a\tb", "~/.aws"⟩, ⟨"\"\"\"\n'''\x07", "it's \"here\""⟩, ⟨"", "C:\\'''\\"⟩]

theorem loadConfig_of_saveConfig_styled :
    ∃ s', (saveConfig "conf/config.toml" styled).run fresh = (.ok (), s') ∧
      (loadConfig "conf/config.toml").run s' = (.ok styled, s') ∧
      ∃ s'', (saveConfig "conf/config.toml" styled).run s' = (.ok (), s'') ∧
        s''.files.read? "conf/config.toml" = s'.files.read? "conf/config.toml" := by
  have h : (saveConfig "conf/config.toml" styled).run fresh =
      (.ok (), ((saveConfig "conf/config.toml" styled).run fresh).2) := by rfl
  obtain ⟨hload, ⟨s'', hagain, hsame, -⟩, -⟩ :=
    loadConfig_of_saveConfig "conf/config.toml" styled h
  exact ⟨_, h, hload, s'', hagain, hsame⟩

end Program

end ContainerBuild
