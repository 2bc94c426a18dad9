import ContainerBuild.Program.Run
import ContainerBuild.Proofs.Outcome

/-!
# Runs that use a configuration

All that a run does but the printing of completions begins with the reading of
the configuration, which changes nothing. Afterwards the run is what is done with
the configuration, and it ends with an exit code and perhaps an error that is told
(`run_of_loadConfig`).
-/

namespace ContainerBuild.Program

open SessionM

variable {σ : Type}

theorem files_run (s : Session σ) : (files : SessionM σ FileTree).run s = (.ok s.files, s) := rfl

theorem ofExcept_run {α : Type} (x : Except Error α) (s : Session σ) :
    (ofExcept x : SessionM σ α).run s = (x, s) := by
  cases x <;> rfl

theorem act_run {α : Type} (f : Session σ → Except Error α × Session σ) (s : Session σ) :
    (act f).run s = f s := rfl

theorem loadConfig_run (path : String) (s : Session σ) :
    (loadConfig path).run s =
      (if s.files.hasPath path then Config.loadFile path (s.files.read? path) else .ok .default,
        s) := by
  rw [loadConfig, run_bind, files_run]
  dsimp only
  split_ifs with hpath
  · exact ofExcept_run _ s
  · rfl

theorem tellError_files (s : Session σ) (e : Error) : (tellError s e).files = s.files := by
  rw [tellError]
  cases e.hint? <;> rfl

/-- How a run ends: an error is told. -/
def ended : Except Error Unit × Session σ → Nat × Session σ
  | (.ok (), s) => (exitSuccess, s)
  | (.error error, s) => (exitFailure, tellError s error)

/-- A run that uses its configuration is what is done with the configuration. -/
theorem run_of_loadConfig (h : Docker.Host σ) {e : Environment} {words : List String}
    {i : Invocation} {s : Session σ} {c : Config} {use : String → Config → SessionM σ Unit}
    (hi : CommandLine.parse e words = .ok i) (huse : perform h e i = withConfig e i use)
    (hload : ((loadConfig (configPath e i)).run s).1 = .ok c) :
    run h e words s = ended ((use (configPath e i) (override i c)).run s) := by
  have hrun : (loadConfig (configPath e i)).run s = (.ok c, s) := by
    rw [loadConfig_run] at hload ⊢
    exact congrArg (·, s) hload
  have hperform : (perform h e i).run s = (use (configPath e i) (override i c)).run s := by
    rw [huse, withConfig, run_bind, hrun]
  have hexecute : run h e words s = execute h e i s := by rw [run, hi]
  rw [hexecute, execute, hperform]
  rcases (use (configPath e i) (override i c)).run s with ⟨_ | _, _⟩ <;> rfl

end ContainerBuild.Program
