import IconMarkup.Proofs.CommandLine.Configured
import IconMarkup.Proofs.Input.Refused

/-!
# Early failures

What fails before the work on the inputs begins: the command line, the settings, or a path, wherever
it stands among the others (`FailsEarly`). These are all runs that are stopped by a mistake or fail
for their settings or inputs (`failsEarly_iff`). They leave nothing on the standard output and all
files as they were (`execute_of_failsEarly`).
-/

namespace IconMarkup.CommandLine

open Config Files

variable {words : List String} {arguments : Arguments} {sources : Sources} {schedule : Schedule}

/-- Loads the settings for arguments. -/
def loadFor (arguments : Arguments) (sources : Sources) : Except Config.Failure Loaded :=
  load sources.files arguments.config (!arguments.usesDefaultConfig)

/-! ### Failing early -/

/-- How a run fails before the work on its inputs: the command line has a mistake, there are no
settings, the settings have faults once those of the command line are among them, or a path is
refused. -/
inductive FailsEarly (words : List String) (sources : Sources) : Prop
  | words {stop : Stop} (hwords : readArguments words = .error stop) (hhelp : stop ≠ .help)
    (hversion : stop ≠ .version)
  | settings {arguments : Arguments} {cause : Config.Failure}
    (hwords : readArguments words = .ok arguments)
    (hload : loadFor arguments sources = .error cause)
  | faults {arguments : Arguments} {loaded : Loaded} (hwords : readArguments words = .ok arguments)
    (hload : loadFor arguments sources = .ok loaded)
    (hfaults : ¬ (mergedSettings arguments loaded).Sound)
  | path {arguments : Arguments} {loaded : Loaded} {before after : List Path} {path : Path}
    {error : InputError} (hwords : readArguments words = .ok arguments)
    (hload : loadFor arguments sources = .ok loaded)
    (hsound : (mergedSettings arguments loaded).Sound)
    (hpaths : arguments.paths = before ++ path :: after)
    (hpath : Refused sources.files arguments.format before path error)

/-- Whether an outcome is an early failure that leaves nothing behind. -/
structure Outcome.Traceless (sources : Sources) (outcome : Outcome) : Prop where
  failure : ∃ failure, outcome.failure = some failure ∧ failure.isEarly = true
  output : outcome.output = ""
  files : outcome.files = sources.files

private theorem traceless_of_failure {failure : Failure} {notices : List Notice}
    (h : failure.isEarly = true) :
    Outcome.Traceless sources { notices, failure := some failure, files := sources.files } :=
  ⟨⟨failure, rfl, h⟩, rfl, rfl⟩

private theorem Outcome.Traceless.after {outcome : Outcome} (h : outcome.Traceless sources)
    (notices : List Notice) : (outcome.after notices).Traceless sources :=
  ⟨h.failure, h.output, h.files⟩

/-- A command with a path that is refused does nothing. -/
private theorem traceless_runCommand {settings : Settings} {error : InputError}
    (h : collectInputs sources.files arguments.format arguments.paths = .error error) :
    (runCommand arguments settings sources schedule).Traceless sources := by
  rw [Arguments.format, Arguments.paths] at h
  rw [runCommand]
  split <;> rename_i hcommand <;> simp only [hcommand] at h
  · rw [runRender, h]
    exact traceless_of_failure rfl
  · rw [runScan, h]
    exact traceless_of_failure rfl

/-- A run that fails early does nothing. -/
theorem traceless_run (h : FailsEarly words sources) (hwords : readArguments words = .ok arguments)
    (schedule : Schedule) : (run arguments sources schedule).Traceless sources := by
  cases h with
  | words hstop =>
    rw [hwords] at hstop
    cases hstop
  | settings hwords' hload =>
    obtain rfl := Except.ok.inj (hwords.symm.trans hwords')
    rw [run_of_load_error hload]
    exact traceless_of_failure rfl
  | faults hwords' hload hfaults =>
    obtain rfl := Except.ok.inj (hwords.symm.trans hwords')
    rw [run_of_not_sound hload hfaults]
    exact (traceless_of_failure rfl).after _
  | path hwords' hload hsound hpaths hpath =>
    obtain rfl := Except.ok.inj (hwords.symm.trans hwords')
    obtain ⟨error, herror⟩ := exists_collectInputs_eq_error_iff.mpr ⟨_, _, _, _, hpaths, hpath⟩
    rw [run_of_sound hload hsound]
    exact (traceless_runCommand herror).after _

/-- A run fails early if and only if it is stopped by a mistake, or fails for its settings or
inputs. -/
theorem failsEarly_iff (words : List String) (sources : Sources) (schedule : Schedule) :
    FailsEarly words sources ↔
      (∃ stop, readArguments words = .error stop ∧ stop ≠ .help ∧ stop ≠ .version) ∨
        ∃ arguments failure, readArguments words = .ok arguments ∧
          (run arguments sources schedule).failure = some failure ∧ failure.isEarly = true := by
  constructor
  · intro h
    rcases hwords : readArguments words with stop | arguments
    · cases h with
      | words hwords' hhelp hversion =>
        obtain rfl := Except.error.inj (hwords.symm.trans hwords')
        exact .inl ⟨_, rfl, hhelp, hversion⟩
      | settings hwords' | faults hwords' | path hwords' =>
        rw [hwords] at hwords'
        cases hwords'
    · obtain ⟨failure, hfailure, hearly⟩ := (traceless_run h hwords schedule).failure
      exact .inr ⟨arguments, failure, rfl, hfailure, hearly⟩
  · rintro (⟨stop, hwords, hhelp, hversion⟩ | ⟨arguments, failure, hwords, hfailure, hearly⟩)
    · exact .words hwords hhelp hversion
    rcases hload : loadFor arguments sources with cause | loaded
    · exact .settings hwords hload
    by_cases hsound : (mergedSettings arguments loaded).Sound
    · rw [run_of_sound hload hsound] at hfailure
      rcases failsFor_runCommand hfailure with ⟨error, herror, -⟩ | ⟨-, hlate⟩
      · obtain ⟨before, path, after, found, hpaths, hpath⟩ :=
          exists_collectInputs_eq_error_iff.mp ⟨error, herror⟩
        exact .path hwords hload hsound hpaths hpath
      · rw [hlate] at hearly
        cases hearly
    · exact .faults hwords hload hsound

/-- Early failures leave no trace: the standard output is empty, the exit code is not zero, and the
files are as they were. -/
theorem execute_of_failsEarly (h : FailsEarly words sources) (schedule : Schedule) :
    (execute words sources schedule).output = "" ∧
      (execute words sources schedule).exitCode ≠ 0 ∧
      (execute words sources schedule).files = sources.files := by
  rcases (failsEarly_iff words sources schedule).mp h with
    ⟨stop, hwords, hhelp, hversion⟩ | ⟨arguments, failure, hwords, -, -⟩
  · rw [execute, hwords]
    cases stop with
    | help => exact absurd rfl hhelp
    | version => exact absurd rfl hversion
    | _ => exact ⟨rfl, by simp [Stop.exitCode], rfl⟩
  · obtain ⟨⟨failure, hfailure, -⟩, houtput, hfiles⟩ := traceless_run h hwords schedule
    rw [execute, hwords]
    refine ⟨houtput, ?_, hfiles⟩
    simp [Outcome.exitCode, hfailure]

/-! ### A path that leads nowhere -/

/-- A page, and nothing else. -/
def pageAlone : Sources :=
  { files := ({} : FileSystem).put ["page.html"] (.file ":fa-solid:x:".toUTF8), stdin := .empty }

/-- Rendering the page, the standard input and a file that is not there. -/
def threePaths : Arguments where
  color := .auto
  config := defaultPath
  verbose := false
  command := .render
    { paths := [⟨["page.html"]⟩, stdinPath, ⟨["missing.html"]⟩]
      output := some ⟨["out"]⟩
      icons := {}
      format := none }

/-- If the last path leads nowhere, there is no output directory, though there is one for the paths
before it. -/
theorem execute_missing :
    FailsEarly ["render", "-o", "out", "page.html", "-", "missing.html"] pageAlone ∧
      (execute ["render", "-o", "out", "page.html", "-", "missing.html"] pageAlone
        .inOrder).files.has ⟨["out"]⟩ = false ∧
      (execute ["render", "-o", "out", "page.html", "-"] pageAlone
        .inOrder).files.has ⟨["out"]⟩ = true := by
  have hwords : readArguments ["render", "-o", "out", "page.html", "-", "missing.html"] =
      .ok threePaths := by
    decide +kernel
  have hload : loadFor threePaths pageAlone = .ok { settings := {} } := by
    decide +kernel
  have hsound : (mergedSettings threePaths { settings := {} }).Sound :=
    Settings.diagnose_eq_nil_iff.mp (by decide +kernel)
  have hpath : Refused pageAlone.files none [⟨["page.html"]⟩, stdinPath] ⟨["missing.html"]⟩
      (.notFound ⟨["missing.html"]⟩) :=
    .notFound (by decide) (by decide +kernel) (by decide +kernel)
  have hearly : FailsEarly ["render", "-o", "out", "page.html", "-", "missing.html"] pageAlone :=
    .path hwords hload hsound rfl hpath
  refine ⟨hearly, ?_, by decide +kernel⟩
  rw [(execute_of_failsEarly hearly .inOrder).2.2]
  decide +kernel

end IconMarkup.CommandLine
