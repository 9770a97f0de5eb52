import IconMarkup.CommandLine.Program
import IconMarkup.Proofs.Config.Faults
import IconMarkup.Proofs.Config.Values

/-!
# Settings of a run

Which settings a run works with. Each one comes from the command line, from the settings file if the
command line does not have it, and from the defaults if neither has it (`Effective`); the command
runs if and only if these settings have no faults (`run_followsSettings`). Without a file there are
only the command line and the defaults. A path that is asked for has to lead to a file, except for
the path that is looked at anyway (`not_run_requires_asked_file`).
-/

namespace IconMarkup.CommandLine

open Config Files Toml

variable {words : List String} {arguments : Arguments} {sources : Sources} {schedule : Schedule}
  {loaded : Loaded}

/-- The paths of the inputs. -/
def Arguments.paths (arguments : Arguments) : List Path :=
  match arguments.command with
  | .render arguments => arguments.paths
  | .scan arguments => arguments.paths

/-- The format of all inputs. -/
def Arguments.format (arguments : Arguments) : Option DocumentFormat :=
  match arguments.command with
  | .render arguments => arguments.format
  | .scan arguments => arguments.format

/-! ### Where the settings come from -/

/-- The path that a command line asks for as that of the settings file. What stands after the
command counts more. -/
def givenConfig? (words : List String) : Option Path :=
  match readBefore {} words with
  | .ok (reading, some (command, rest)) =>
    match reading.settle, readAfter command rest with
    | .ok before, .ok after => after.config.or before.given.config
    | _, _ => none
  | _ => none

private theorem bind_eq_ok_iff {ε α β : Type} {x : Except ε α} {f : α → Except ε β} {b : β} :
    (x >>= f) = .ok b ↔ ∃ a, x = .ok a ∧ f a = .ok b := by
  cases x <;> simp [bind, Except.bind]

/-- The settings file is the one that is asked for, or the default one. -/
private theorem config_of_readArguments (h : readArguments words = .ok arguments) :
    arguments.config = (givenConfig? words).getD defaultPath := by
  obtain ⟨⟨reading, command⟩, hwords, h⟩ := bind_eq_ok_iff.mp h
  rw [givenConfig?, hwords]
  rcases command with _ | ⟨command, rest⟩
  · obtain ⟨before, -, h⟩ := bind_eq_ok_iff.mp h
    dsimp only at h
    split at h <;> cases h
  · cases command with
    | help => cases h
    | render | scan =>
      obtain ⟨after, hafter, h⟩ := bind_eq_ok_iff.mp h
      obtain ⟨before, hbefore, h⟩ := bind_eq_ok_iff.mp h
      cases h
      simp only [hafter, hbefore]
      rfl

/-- What a settings file is, for a run that can go on: there is none, and none was asked for but
the default one, or there is one with a text that has settings. -/
inductive Usable (files : FileSystem) (given : Option Path) (config : Path) : Option Table → Prop
  | missing (hfind : findFrom files files.workingDirectory config = none)
      (hgiven : ∀ path, given = some path → path = defaultPath) : Usable files given config none
  | file {found : Path} {text : String} {table : Table} {settings : Settings}
      {unknown : List FieldPath} (hfind : findFrom files files.workingDirectory config = some found)
      (hread : files.readText found = .ok text) (htable : Table.ofText? text = some table)
      (hsettings : Settings.ofText? text = some (settings, unknown)) :
      Usable files given config (some table)

/-- Whether settings are the effective ones: each is the value on the command line, or else that in
the settings file, or else the default one. -/
structure Effective (overrides : Overrides) (file : Option Table) (settings : Settings) : Prop where
  classPrefix : settings.icons.classPrefix =
    (overrides.classPrefix.or (file.bind givenPrefix?)).getD "fa"
  additional : settings.icons.additional =
    (overrides.classes.or (file.bind givenClasses?)).getD []
  skipElements : settings.render.skipElements =
    ((file.bind givenSkips?).map fun tags => tags.map normalTag).getD ["script", "style"]

/-- Values on the command line replace those of the settings. -/
private theorem effective_override {file : Option Table} {settings : Settings}
    (h : Gives file settings) (overrides : Overrides) :
    Effective overrides file (settings.override overrides.classPrefix overrides.classes) := by
  refine ⟨?_, ?_, h.skipElements⟩
  · change overrides.classPrefix.getD settings.icons.classPrefix = _
    rw [h.classPrefix]
    rcases overrides.classPrefix with _ | value <;> rfl
  · change overrides.classes.getD settings.icons.additional = _
    rw [h.additional]
    rcases overrides.classes with _ | value <;> rfl

/-! ### Loading -/

section Loading

variable {files : FileSystem} {path found : Path}

/-- Without a file there are the default settings, or a failure if the file is required. -/
private theorem load_of_none (h : findFrom files files.workingDirectory path = none)
    (required : Bool) :
    load files path required =
      if required then .error (.notFound path) else .ok { settings := {} } := by
  rw [load, h]

/-- A file that is found is loaded, whether it is required or not. -/
private theorem load_of_some (h : findFrom files files.workingDirectory path = some found)
    (required : Bool) : load files path required = loadFile files found := by
  rw [load, h]

private theorem loadFile_of_unreadable {fault : Fault} (h : files.readText found = .error fault) :
    loadFile files found = .error (.unreadable found fault) := by
  rw [loadFile, h]

private theorem loadFile_of_malformed {text : String} (hread : files.readText found = .ok text)
    (hsettings : Settings.ofText? text = none) : loadFile files found = .error .malformed := by
  rw [loadFile, hread]
  dsimp only
  rw [hsettings]

private theorem loadFile_of_ofText? {text : String} {settings : Settings} {unknown : List FieldPath}
    (hread : files.readText found = .ok text)
    (hsettings : Settings.ofText? text = some (settings, unknown)) :
    loadFile files found = .ok { settings, path := some found, unknown } := by
  rw [loadFile, hread]
  dsimp only
  rw [hsettings]

end Loading

/-- The default file is used exactly if no other one is named. -/
theorem usesDefaultConfig_iff (h : readArguments words = .ok arguments) :
    arguments.usesDefaultConfig = true ↔
      ∀ path, givenConfig? words = some path → path = defaultPath := by
  rw [Arguments.usesDefaultConfig, decide_eq_true_iff, config_of_readArguments h]
  rcases givenConfig? words with _ | path <;> simp

/-- Usable settings are loaded. -/
theorem exists_load (h : readArguments words = .ok arguments) {file : Option Table}
    (hfile : Usable sources.files (givenConfig? words) arguments.config file) :
    ∃ loaded, load sources.files arguments.config (!arguments.usesDefaultConfig) = .ok loaded ∧
      Gives file loaded.settings := by
  cases hfile with
  | missing hfind hgiven =>
    rw [load_of_none hfind, (usesDefaultConfig_iff h).mpr hgiven]
    exact ⟨_, rfl, gives_none⟩
  | file hfind hread htable hsettings =>
    rw [load_of_some hfind, loadFile_of_ofText? hread hsettings]
    refine ⟨_, rfl, ?_⟩
    obtain ⟨table, htable', hgives⟩ := gives_of_ofText? hsettings
    rw [htable, Option.some_inj] at htable'
    rwa [htable']

/-! ### Running -/

/-- The settings that a run works with. -/
def mergedSettings (arguments : Arguments) (loaded : Loaded) : Settings :=
  loaded.settings.override arguments.icons.classPrefix arguments.icons.classes

/-- A run without settings. -/
theorem run_of_load_error {cause : Config.Failure}
    (h : load sources.files arguments.config (!arguments.usesDefaultConfig) = .error cause) :
    run arguments sources schedule =
      { failure := some (.settings cause), files := sources.files } := by
  rw [run, h]

/-- Settings are accepted exactly if they have no fault. -/
private theorem validate_eq {settings : Settings} :
    settings.validate =
      if settings.diagnose = [] then .ok () else .error (.invalid settings.diagnose) := by
  rw [Settings.validate]
  rcases settings.diagnose with _ | ⟨diagnostic, diagnostics⟩ <;> simp

/-- A run with settings that can be used. -/
theorem run_of_sound
    (h : load sources.files arguments.config (!arguments.usesDefaultConfig) = .ok loaded)
    (hsound : (mergedSettings arguments loaded).Sound) :
    run arguments sources schedule =
      (runCommand arguments (mergedSettings arguments loaded) sources schedule).after
        (loadedNotices arguments loaded) := by
  have hvalid : (mergedSettings arguments loaded).validate = .ok () := by
    rw [validate_eq, if_pos (Settings.diagnose_eq_nil_iff.mpr hsound)]
  rw [mergedSettings] at hvalid
  rw [run, h]
  dsimp only
  rw [hvalid]
  rfl

/-- A run with settings that have faults. -/
theorem run_of_not_sound
    (h : load sources.files arguments.config (!arguments.usesDefaultConfig) = .ok loaded)
    (hsound : ¬ (mergedSettings arguments loaded).Sound) :
    run arguments sources schedule =
      Outcome.after
        { failure := some (.settings (.invalid (mergedSettings arguments loaded).diagnose))
          files := sources.files }
        (loadedNotices arguments loaded) := by
  have hvalid : (mergedSettings arguments loaded).validate =
      .error (.invalid (mergedSettings arguments loaded).diagnose) := by
    rw [validate_eq, if_neg (mt Settings.diagnose_eq_nil_iff.mp hsound)]
  rw [mergedSettings] at hvalid
  rw [run, h]
  dsimp only
  rw [hvalid]
  rfl

/-- Whether a failure is one of the settings or inputs. -/
def Failure.isEarly : Failure → Bool
  | .settings _ => true
  | .inputs _ => true
  | _ => false

section Command

variable {settings : Settings} {failure : Failure}

private theorem not_isEarly_of_failureOf {failureFor : Nat → Failure} {count : Nat}
    (h : ∀ count, (failureFor count).isEarly = false)
    (hfailure : failureOf failureFor count = some failure) : failure.isEarly = false := by
  rw [failureOf] at hfailure
  split at hfailure <;> cases hfailure
  exact h count

/-- Why a command for paths fails: for a path, or later. -/
def FailsFor (sources : Sources) (forced : Option DocumentFormat) (paths : List Path)
    (failure : Failure) : Prop :=
  (∃ error, collectInputs sources.files forced paths = .error error ∧ failure = .inputs error) ∨
    (∃ inputs, collectInputs sources.files forced paths = .ok inputs) ∧ failure.isEarly = false

private theorem failsFor_runRender {arguments : RenderArguments}
    (h : (runRender arguments settings sources schedule).failure = some failure) :
    FailsFor sources arguments.format arguments.paths failure := by
  rw [runRender] at h
  rcases hinputs : collectInputs sources.files arguments.format arguments.paths with error | inputs
  · rw [hinputs] at h
    cases h
    exact .inl ⟨error, hinputs, rfl⟩
  · refine .inr ⟨⟨inputs, hinputs⟩, ?_⟩
    simp only [hinputs, Outcome.after] at h
    split at h
    · rw [renderToDirectory] at h
      split at h
      · cases h
        rfl
      · exact not_isEarly_of_failureOf (fun _ => rfl) h
    · exact not_isEarly_of_failureOf (fun _ => rfl) h

private theorem failsFor_runScan {arguments : ScanArguments}
    (h : (runScan arguments settings sources).failure = some failure) :
    FailsFor sources arguments.format arguments.paths failure := by
  rw [runScan] at h
  rcases hinputs : collectInputs sources.files arguments.format arguments.paths with error | inputs
  · rw [hinputs] at h
    cases h
    exact .inl ⟨error, hinputs, rfl⟩
  · refine .inr ⟨⟨inputs, hinputs⟩, ?_⟩
    simp only [hinputs, scanInputs] at h
    split at h
    · exact not_isEarly_of_failureOf (fun _ => rfl) h
    · split at h
      · cases h
        rfl
      · exact not_isEarly_of_failureOf (fun _ => rfl) h

/-- A command fails only for one of the reasons that its inputs give. -/
theorem failsFor_runCommand
    (h : (runCommand arguments settings sources schedule).failure = some failure) :
    FailsFor sources arguments.format arguments.paths failure := by
  rw [Arguments.format, Arguments.paths]
  rw [runCommand] at h
  split <;> rename_i hcommand <;> simp only [hcommand] at h ⊢
  · exact failsFor_runRender h
  · exact failsFor_runScan h

/-- Once a command runs, it does not fail for its settings. -/
private theorem failure_runCommand_ne (arguments : Arguments) (settings : Settings)
    (sources : Sources) (schedule : Schedule) (cause : Config.Failure) :
    (runCommand arguments settings sources schedule).failure ≠ some (.settings cause) := by
  intro h
  rcases failsFor_runCommand h with ⟨error, -, heq⟩ | ⟨-, hlate⟩
  · cases heq
  · cases hlate

end Command

/-- Whether the outcome of a run is the one for its settings file. -/
structure FollowsSettings (given : Option Path) (arguments : Arguments) (sources : Sources)
    (schedule : Schedule) (outcome : Outcome) : Prop where
  notFound : findFrom sources.files sources.files.workingDirectory arguments.config = none →
    (outcome.failure = some (.settings (.notFound arguments.config)) ↔
      ∃ path, given = some path ∧ path ≠ defaultPath)
  unreadable : ∀ {found fault},
    findFrom sources.files sources.files.workingDirectory arguments.config = some found →
      sources.files.readText found = .error fault →
        outcome.failure = some (.settings (.unreadable found fault))
  malformed : ∀ {found text},
    findFrom sources.files sources.files.workingDirectory arguments.config = some found →
      sources.files.readText found = .ok text → Settings.ofText? text = none →
        outcome.failure = some (.settings .malformed)
  merged : ∀ {file}, Usable sources.files given arguments.config file →
    ∃ settings, Effective arguments.icons file settings ∧
      ((∃ notices, outcome =
          (runCommand arguments settings sources schedule).after notices) ↔ settings.Sound) ∧
      (¬ settings.Sound → ∃ diagnostics, diagnostics ≠ [] ∧
        outcome.failure = some (.settings (.invalid diagnostics)))

/-- The command runs if and only if the settings file is usable and the settings of the command
line, of the file and by default have no faults together. -/
theorem run_followsSettings (h : readArguments words = .ok arguments) (sources : Sources)
    (schedule : Schedule) :
    FollowsSettings (givenConfig? words) arguments sources schedule
      (run arguments sources schedule) := by
  refine ⟨fun hfind => ?_, fun hfind hread => ?_, fun hfind hread hsettings => ?_, fun hfile => ?_⟩
  · have hasked : (∃ path, givenConfig? words = some path ∧ path ≠ defaultPath) ↔
        arguments.usesDefaultConfig = false := by
      rw [← Bool.not_eq_true, usesDefaultConfig_iff h]
      simp
    rw [hasked]
    have hload := load_of_none hfind (!arguments.usesDefaultConfig)
    split at hload
    · rename_i hrequired
      simpa [run_of_load_error hload] using hrequired
    · rename_i hrequired
      have hdefault : arguments.usesDefaultConfig = true := by simpa using hrequired
      -- the default settings are used, so that only the command may fail, or their check
      refine iff_of_false (fun hfailure => ?_) (by simp [hdefault])
      by_cases hsound : (mergedSettings arguments { settings := {} }).Sound
      · rw [run_of_sound hload hsound] at hfailure
        exact failure_runCommand_ne _ _ _ _ _ hfailure
      · rw [run_of_not_sound hload hsound] at hfailure
        cases hfailure
  · rw [run_of_load_error ((load_of_some hfind _).trans (loadFile_of_unreadable hread))]
  · rw [run_of_load_error ((load_of_some hfind _).trans (loadFile_of_malformed hread hsettings))]
  · obtain ⟨loaded, hload, hgives⟩ := exists_load h hfile
    refine ⟨mergedSettings arguments loaded, effective_override hgives _, ?_, fun hsound => ?_⟩
    · refine ⟨fun ⟨notices, hrun⟩ => ?_, fun hsound => ⟨_, run_of_sound hload hsound⟩⟩
      by_contra hsound
      rw [run_of_not_sound hload hsound] at hrun
      exact failure_runCommand_ne _ _ _ _ _ (congrArg Outcome.failure hrun).symm
    · refine ⟨_, mt Settings.diagnose_eq_nil_iff.mp hsound, ?_⟩
      rw [run_of_not_sound hload hsound]
      rfl

/-! ### A file that is asked for -/

/-- Rendering the standard input, with the settings file at a path. -/
def askFor (path : Path) : Arguments where
  color := .auto
  config := path
  verbose := false
  command := .render ⟨[], none, {}, none⟩

/-- A shortcode on the standard input, and no files. -/
def coffeeOnly : Sources :=
  { files := {}, stdin := ":fa-solid:coffee:".toUTF8 }

/-- Asking for a settings file that is not there is a failure, unless the file is asked for by the
default path: then the command runs without it. -/
theorem not_run_requires_asked_file :
    readArguments ["-C", "icons.toml", "render"] = .ok (askFor ⟨["icons.toml"]⟩) ∧
      (run (askFor ⟨["icons.toml"]⟩) coffeeOnly .inOrder).failure =
        some (.settings (.notFound ⟨["icons.toml"]⟩)) ∧
      readArguments ["-C", "fa.toml", "render"] = .ok (askFor ⟨["fa.toml"]⟩) ∧
      (run (askFor ⟨["fa.toml"]⟩) coffeeOnly .inOrder).exitCode = 0 ∧
      ¬ ∀ (words : List String) (arguments : Arguments) (path : Path) (sources : Sources)
        (schedule : Schedule), readArguments words = .ok arguments →
          givenConfig? words = some path →
            findFrom sources.files sources.files.workingDirectory path = none →
              (run arguments sources schedule).failure = some (.settings (.notFound path)) := by
  have hother : readArguments ["-C", "icons.toml", "render"] = .ok (askFor ⟨["icons.toml"]⟩) := by
    decide +kernel
  have hdefault : readArguments ["-C", "fa.toml", "render"] = .ok (askFor ⟨["fa.toml"]⟩) := by
    decide +kernel
  have hgiven : givenConfig? ["-C", "fa.toml", "render"] = some defaultPath := by
    decide +kernel
  have hnowhere :
      findFrom coffeeOnly.files coffeeOnly.files.workingDirectory defaultPath = none := by
    decide +kernel
  refine ⟨hother, ?_, hdefault, by decide +kernel, fun hrequired => ?_⟩
  · refine ((run_followsSettings hother coffeeOnly .inOrder).notFound (by decide +kernel)).mpr ?_
    exact ⟨⟨["icons.toml"]⟩, by decide +kernel, by decide⟩
  · have hfailure := hrequired _ _ _ coffeeOnly .inOrder hdefault hgiven hnowhere
    obtain ⟨path, hpath, hne⟩ :=
      ((run_followsSettings hdefault coffeeOnly .inOrder).notFound hnowhere).mp hfailure
    rw [hgiven, Option.some_inj] at hpath
    exact hne hpath.symm

end IconMarkup.CommandLine
