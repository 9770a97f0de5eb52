import Mathlib.Algebra.GroupWithZero.Nat
import Mathlib.Data.List.Basic
import IconMarkup.CommandLine.Scanning

/-!
# Inputs that fail

What inputs that cannot be read do to a run. Both commands work on each input by itself: what they
make of it is made of its text (`renderInput_eq`, `scanInput_eq`). So the inputs that can be read
(`readable`) give the results, and the others (`unreadable`) give the errors, both in the order of
the inputs (`filterMap_toOption_results`, `filterMap_error_results`). The standard output
(`RendersEach`) and the report (`ScansEach`) tell of the former only: they stay what they are
wherever inputs that fail are added (`runs_of_collectInputs`). The exit code is zero if no input
fails, unless there is no place for the report.
-/

namespace IconMarkup.CommandLine

open Config Files

variable {sources : Sources} {settings : Settings} {forced : Option DocumentFormat}
  {inputs : List Input} {input : Input} {text : String}

/-! ### Inputs that can be read -/

/-- Whether an input can be read. -/
def isReadable (sources : Sources) (input : Input) : Bool :=
  (input.read sources).toOption.isSome

/-- The inputs that can be read, in order, with their texts. -/
def readable (sources : Sources) (inputs : List Input) : List (Input × String) :=
  inputs.filterMap fun input => (input.read sources).toOption.map (input, ·)

/-- Why the other inputs cannot be read, in order. -/
def unreadable (sources : Sources) (inputs : List Input) : List Input.ReadError :=
  inputs.filterMap fun input =>
    match input.read sources with
    | .ok _ => none
    | .error error => some error

private theorem isReadable_of_ok (h : input.read sources = .ok text) :
    isReadable sources input = true := by
  rw [isReadable, h]
  rfl

private theorem isReadable_of_error {error : Input.ReadError}
    (h : input.read sources = .error error) :
    isReadable sources input = false := by
  rw [isReadable, h]
  rfl

private theorem readable_cons_of_ok (h : input.read sources = .ok text) (inputs : List Input) :
    readable sources (input :: inputs) = (input, text) :: readable sources inputs := by
  rw [readable, List.filterMap_cons, h]
  rfl

private theorem readable_cons_of_error {error : Input.ReadError}
    (h : input.read sources = .error error)
    (inputs : List Input) : readable sources (input :: inputs) = readable sources inputs := by
  rw [readable, List.filterMap_cons, h]
  rfl

private theorem unreadable_cons_of_ok (h : input.read sources = .ok text) (inputs : List Input) :
    unreadable sources (input :: inputs) = unreadable sources inputs := by
  rw [unreadable, List.filterMap_cons, h]
  rfl

private theorem unreadable_cons_of_error {error : Input.ReadError}
    (h : input.read sources = .error error) (inputs : List Input) :
    unreadable sources (input :: inputs) = error :: unreadable sources inputs := by
  rw [unreadable, List.filterMap_cons, h]
  rfl

/-- An input that fails may stand anywhere between the others. -/
private theorem readable_insert {error : Input.ReadError} (h : input.read sources = .error error)
    (before after : List Input) :
    readable sources (before ++ input :: after) = readable sources (before ++ after) := by
  have happend (first second : List Input) :
      readable sources (first ++ second) = readable sources first ++ readable sources second :=
    List.filterMap_append
  rw [happend, happend, readable_cons_of_error h]

private theorem input_of_read_eq_error {error : Input.ReadError}
    (h : input.read sources = .error error) :
    error.input = input := by
  cases input with
  | stdin =>
    rw [Input.read.eq_def] at h
    rcases hcontent : decodeText sources.stdin with fault | text <;>
      simp only [hcontent, Except.mapError] at h <;> cases h
    rfl
  | file path root =>
    rw [Input.read.eq_def] at h
    rcases hcontent : sources.files.readText path with fault | text <;>
      simp only [hcontent, Except.mapError] at h <;> cases h
    rfl

/-- There is one text for each input that can be read, in the order of the inputs. -/
private theorem map_fst_readable (sources : Sources) (inputs : List Input) :
    (readable sources inputs).map Prod.fst = inputs.filter (isReadable sources) := by
  induction inputs with
  | nil => rfl
  | cons input inputs ih =>
    rcases hread : input.read sources with error | text
    · rw [readable_cons_of_error hread, ih, List.filter_cons_of_neg]
      simp [isReadable_of_error hread]
    · rw [readable_cons_of_ok hread, List.map_cons, ih,
        List.filter_cons_of_pos (isReadable_of_ok hread)]

/-- There is one error for each input that cannot be read, in the order of the inputs. -/
private theorem map_input_unreadable (sources : Sources) (inputs : List Input) :
    (unreadable sources inputs).map (·.input) =
      inputs.filter fun input => !isReadable sources input := by
  induction inputs with
  | nil => rfl
  | cons input inputs ih =>
    rw [List.filter_cons]
    rcases hread : input.read sources with error | text
    · rw [unreadable_cons_of_error hread, List.map_cons, ih, input_of_read_eq_error hread,
        isReadable_of_error hread]
      rfl
    · rw [unreadable_cons_of_ok hread, ih, isReadable_of_ok hread]
      rfl

/-- No input fails if and only if there is no error. -/
private theorem unreadable_eq_nil_iff :
    unreadable sources inputs = [] ↔ ∀ input ∈ inputs, isReadable sources input = true := by
  rw [← List.map_eq_nil_iff, map_input_unreadable, List.filter_eq_nil_iff]
  simp

/-! ### Results -/

/-- The message about an input that cannot be read. -/
def errorNotice (error : Input.ReadError) : Notice :=
  failedNotice error.input error.message

section Results

variable {α : Type} {run : Input → Except Input.ReadError α} {make : Input → String → α}

/-- What is made of inputs comes from those that can be read. -/
theorem filterMap_toOption_results
    (h : ∀ input, run input = (input.read sources).map (make input)) (inputs : List Input) :
    ((inputs.map fun input => (input, run input)).filterMap fun (_, result) => result.toOption) =
      (readable sources inputs).map fun (input, text) => make input text := by
  induction inputs with
  | nil => rfl
  | cons input inputs ih =>
    rcases hread : input.read sources with error | text
    · rw [readable_cons_of_error hread, ← ih, List.map_cons, h input, hread]
      rfl
    · rw [readable_cons_of_ok hread, List.map_cons, List.map_cons, ← ih, h input, hread]
      rfl

/-- The errors come from those that cannot. -/
theorem filterMap_error_results
    (h : ∀ input, run input = (input.read sources).map (make input))
    {notice? : Input × Except Input.ReadError α → Option Notice}
    (hok : ∀ input value, notice? (input, .ok value) = none)
    (herror : ∀ input error,
      notice? (input, .error error) = some (failedNotice input error.message)) :
    (inputs.map fun input => (input, run input)).filterMap notice? =
      (unreadable sources inputs).map errorNotice := by
  induction inputs with
  | nil => rfl
  | cons input inputs ih =>
    rw [List.map_cons, List.filterMap_cons, ih, h input]
    rcases hread : input.read sources with error | text
    · rw [unreadable_cons_of_error hread, Except.map, herror, List.map_cons, errorNotice,
        input_of_read_eq_error hread]
    · rw [unreadable_cons_of_ok hread, Except.map, hok]

end Results

/-- The document of an input with a text. -/
def documentOf (settings : Settings) (forced : Option DocumentFormat) (input : Input)
    (text : String) : Document :=
  (input.format forced).read settings.render.markdown text

/-- What rendering an input with a text gives. -/
def renderedOf (settings : Settings) (forced : Option DocumentFormat) (input : Input)
    (text : String) : Rendered :=
  let (document, replaced) := (documentOf settings forced input text).withIcons settings
  ⟨document.render, replaced, Text.byteLength document.textContent.toList, input.format forced⟩

/-- What scanning an input with a text gives. -/
def scannedOf (settings : Settings) (forced : Option DocumentFormat) (input : Input)
    (text : String) : Scanned :=
  ⟨input, input.format forced, collect (documentOf settings forced input text) settings⟩

theorem renderInput_eq (sources : Sources) (settings : Settings) (forced : Option DocumentFormat)
    (input : Input) :
    renderInput sources settings forced input =
      (input.read sources).map (renderedOf settings forced input) := by
  rw [renderInput]
  rcases input.read sources with error | text <;> rfl

theorem scanInput_eq (sources : Sources) (settings : Settings) (forced : Option DocumentFormat)
    (input : Input) :
    scanInput sources settings forced input =
      (input.read sources).map (scannedOf settings forced input) := by
  rw [scanInput]
  rcases input.read sources with error | text <;> rfl

/-! ### Runs -/

/-- Whether a notice is a message about an input that failed. -/
def Notice.isError : Notice → Bool
  | .log .error _ => true
  | .detail .error _ => true
  | _ => false

/-- Whether rendering inputs to the standard output has rendered each input that can be read and
told of each one that cannot. -/
structure RendersEach (sources : Sources) (settings : Settings) (forced : Option DocumentFormat)
    (inputs : List Input) (outcome : Outcome) : Prop where
  output : outcome.output = String.join ((readable sources inputs).map fun (input, text) =>
    withLineEnd (process (documentOf settings forced input text) settings))
  errors : outcome.notices.filter Notice.isError = (unreadable sources inputs).map errorNotice
  failure : outcome.failure = failureOf .unrendered (unreadable sources inputs).length

/-- The records of the inputs that can be read. -/
def recordsOf (sources : Sources) (settings : Settings) (forced : Option DocumentFormat)
    (inputs : List Input) : List Scanned :=
  (readable sources inputs).map fun (input, text) => scannedOf settings forced input text

/-- The notice of how many shortcodes there are. -/
def foundNotice (records : List Scanned) : Notice :=
  .log .scan ("found " ++ countedShortcodes (records.map fun record => record.icons.length).sum)

/-- What is told about scanning before the report is written. -/
def scanNotices (sources : Sources) (settings : Settings) (forced : Option DocumentFormat)
    (inputs : List Input) : List Notice :=
  let records := recordsOf sources settings forced inputs
  .log .scan ("scanning " ++ Text.counted inputs.length "file") ::
    (unreadable sources inputs).map errorNotice ++
    (records.map fun record =>
      Notice.detail .scan
        (record.input.display ++ ": " ++ countedShortcodes record.icons.length)) ++
    [foundNotice records]

/-- The report on the inputs that can be read. -/
def reportOf (sources : Sources) (settings : Settings) (arguments : ScanArguments)
    (inputs : List Input) : String :=
  report arguments.pretty (recordsOf sources settings arguments.format inputs)

/-- Whether scanning inputs has reported each input that can be read and told of each one that
cannot, on the standard output or in a file. -/
structure ScansEach (sources : Sources) (settings : Settings) (arguments : ScanArguments)
    (inputs : List Input) (outcome : Outcome) : Prop where
  errors : outcome.notices.filter Notice.isError = (unreadable sources inputs).map errorNotice
  found : foundNotice (recordsOf sources settings arguments.format inputs) ∈ outcome.notices
  toOutput : arguments.output = none →
    outcome.output = reportOf sources settings arguments inputs ∧ outcome.files = sources.files ∧
      outcome.failure = failureOf .unscanned (unreadable sources inputs).length
  toFile : ∀ {path files}, arguments.output = some path →
    sources.files.writeFile path (reportOf sources settings arguments inputs).toUTF8 = .ok files →
      outcome.output = "" ∧ outcome.files = files ∧
        outcome.failure = failureOf .unscanned (unreadable sources inputs).length
  nowhere : ∀ {path fault}, arguments.output = some path →
    sources.files.writeFile path (reportOf sources settings arguments inputs).toUTF8 =
        .error fault →
      outcome.output = "" ∧ outcome.files = sources.files ∧
        outcome.failure = some (.outputFile path fault)

private theorem filter_isError_errorNotice (errors : List Input.ReadError) :
    (errors.map errorNotice).filter Notice.isError = errors.map errorNotice := by
  refine List.filter_eq_self.mpr fun notice hnotice => ?_
  obtain ⟨error, -, rfl⟩ := List.mem_map.mp hnotice
  rfl

/-- About a rendered input, only details are told. -/
theorem Rendered.exists_detail_of_mem_notices {rendered : Rendered} {notice : Notice}
    (h : notice ∈ rendered.notices) : ∃ message, notice = .detail .render message := by
  rw [Rendered.notices] at h
  rcases List.mem_append.mp h with hreplaced | hlength
  · split at hreplaced
    · cases hreplaced
    · exact ⟨_, List.mem_singleton.mp hreplaced⟩
  · exact ⟨_, List.mem_singleton.mp hlength⟩

private theorem filter_isError_flatMap_notices (rendered : List Rendered) :
    (rendered.flatMap Rendered.notices).filter Notice.isError = [] := by
  refine List.filter_eq_nil_iff.mpr fun notice hnotice => ?_
  obtain ⟨result, -, hresult⟩ := List.mem_flatMap.mp hnotice
  obtain ⟨message, rfl⟩ := Rendered.exists_detail_of_mem_notices hresult
  simp [Notice.isError]

theorem Outcome.exitCode_eq_zero_iff {outcome : Outcome} :
    outcome.exitCode = 0 ↔ outcome.failure = none := by
  rw [exitCode]
  rcases outcome.failure with _ | failure <;> simp

theorem failureOf_eq_none_iff {failure : Nat → Failure} :
    failureOf failure (unreadable sources inputs).length = none ↔
      ∀ input ∈ inputs, isReadable sources input = true := by
  rw [← unreadable_eq_nil_iff, failureOf]
  simp

/-- Rendering to the standard output works on each input by itself. -/
private theorem rendersEach_renderToOutput (sources : Sources) (settings : Settings)
    (forced : Option DocumentFormat) (inputs : List Input) :
    RendersEach sources settings forced inputs
      (renderToOutput sources settings forced inputs) := by
  have hrender := renderInput_eq sources settings forced
  rw [renderToOutput, filterMap_toOption_results hrender,
    filterMap_error_results hrender (by intros; rfl) (by intros; rfl)]
  refine ⟨?_, ?_, ?_⟩
  · rw [List.map_map]
    rfl
  · rw [List.filter_append, filter_isError_flatMap_notices, filter_isError_errorNotice,
      List.nil_append]
  · rw [List.length_map]

/-- The exit code is zero if no input fails. -/
theorem RendersEach.exitCode_eq_zero_iff {outcome : Outcome}
    (h : RendersEach sources settings forced inputs outcome) :
    outcome.exitCode = 0 ↔ ∀ input ∈ inputs, isReadable sources input = true := by
  rw [Outcome.exitCode_eq_zero_iff, h.failure, failureOf_eq_none_iff]

/-! ### Scanning inputs -/

private theorem filter_isError_scanNotices (sources : Sources) (settings : Settings)
    (forced : Option DocumentFormat) (inputs : List Input) :
    (scanNotices sources settings forced inputs).filter Notice.isError =
      (unreadable sources inputs).map errorNotice := by
  have hdetails (records : List Scanned) : (records.map fun record =>
      Notice.detail .scan
        (record.input.display ++ ": " ++ countedShortcodes record.icons.length)).filter
          Notice.isError = [] := by
    refine List.filter_eq_nil_iff.mpr fun notice hnotice => ?_
    obtain ⟨record, -, rfl⟩ := List.mem_map.mp hnotice
    simp [Notice.isError]
  rw [scanNotices, List.filter_append, List.filter_append, hdetails,
    List.filter_cons_of_neg (by simp [Notice.isError]), filter_isError_errorNotice]
  simp [foundNotice, Notice.isError]

section Scanning

variable {arguments : ScanArguments} {path : Path}

/-- What scanning leaves behind: the report goes to one of two places, and what is told before is
the same. -/
private theorem scanInputs_eq (sources : Sources) (settings : Settings) (arguments : ScanArguments)
    (inputs : List Input) :
    scanInputs sources settings arguments inputs =
      let notices := scanNotices sources settings arguments.format inputs
      let failure := failureOf .unscanned (unreadable sources inputs).length
      let text := reportOf sources settings arguments inputs
      match arguments.output with
      | none => { output := text, notices, failure, files := sources.files }
      | some path =>
        match sources.files.writeFile path text.toUTF8 with
        | .error fault =>
          { notices, failure := some (.outputFile path fault), files := sources.files }
        | .ok files =>
          let done := Notice.log .scan ("wrote output to " ++ path.toString)
          { notices := notices ++ [done], failure, files } := by
  have hscan := scanInput_eq sources settings arguments.format
  have hrecords : _ = recordsOf sources settings arguments.format inputs :=
    filterMap_toOption_results hscan inputs
  rw [scanInputs, hrecords, filterMap_error_results hscan (by intros; rfl) (by intros; rfl),
    List.length_flatMap, List.length_map]
  rfl

/-- Scanning to the standard output. -/
private theorem scanInputs_of_none (houtput : arguments.output = none) :
    scanInputs sources settings arguments inputs =
      { output := reportOf sources settings arguments inputs
        notices := scanNotices sources settings arguments.format inputs
        failure := failureOf .unscanned (unreadable sources inputs).length
        files := sources.files } := by
  rw [scanInputs_eq, houtput]

/-- Scanning to a file that cannot be written. -/
private theorem scanInputs_of_error {fault : Fault} (houtput : arguments.output = some path)
    (hwrite : sources.files.writeFile path
      (reportOf sources settings arguments inputs).toUTF8 = .error fault) :
    scanInputs sources settings arguments inputs =
      { notices := scanNotices sources settings arguments.format inputs
        failure := some (.outputFile path fault)
        files := sources.files } := by
  rw [scanInputs_eq, houtput]
  dsimp only
  rw [hwrite]

/-- Scanning to a file. -/
private theorem scanInputs_of_ok {files : FileSystem} (houtput : arguments.output = some path)
    (hwrite : sources.files.writeFile path
      (reportOf sources settings arguments inputs).toUTF8 = .ok files) :
    scanInputs sources settings arguments inputs =
      { notices := scanNotices sources settings arguments.format inputs ++
          [.log .scan ("wrote output to " ++ path.toString)]
        failure := failureOf .unscanned (unreadable sources inputs).length
        files } := by
  rw [scanInputs_eq, houtput]
  dsimp only
  rw [hwrite]

/-- Nothing but the message about the file is told after the report is written. -/
private theorem exists_notices_scanInputs (sources : Sources) (settings : Settings)
    (arguments : ScanArguments) (inputs : List Input) :
    ∃ done, (scanInputs sources settings arguments inputs).notices =
        scanNotices sources settings arguments.format inputs ++ done ∧
      done.filter Notice.isError = [] := by
  rcases houtput : arguments.output with _ | path
  · rw [scanInputs_of_none houtput]
    exact ⟨[], (List.append_nil _).symm, rfl⟩
  · rcases hwrite : sources.files.writeFile path
        (reportOf sources settings arguments inputs).toUTF8 with fault | files
    · rw [scanInputs_of_error houtput hwrite]
      exact ⟨[], (List.append_nil _).symm, rfl⟩
    · rw [scanInputs_of_ok houtput hwrite]
      exact ⟨_, rfl, rfl⟩

end Scanning

/-- Scanning works on each input by itself. -/
private theorem scansEach_scanInputs (sources : Sources) (settings : Settings)
    (arguments : ScanArguments) (inputs : List Input) :
    ScansEach sources settings arguments inputs
      (scanInputs sources settings arguments inputs) := by
  obtain ⟨done, hnotices, hdone⟩ := exists_notices_scanInputs sources settings arguments inputs
  refine ⟨?_, ?_, fun houtput => ?_, fun houtput hwrite => ?_, fun houtput hwrite => ?_⟩
  · rw [hnotices, List.filter_append, hdone, filter_isError_scanNotices, List.append_nil]
  · rw [hnotices]
    exact List.mem_append_left _ (List.mem_append_right _ (List.mem_singleton_self _))
  · rw [scanInputs_of_none houtput]
    exact ⟨rfl, rfl, rfl⟩
  · rw [scanInputs_of_ok houtput hwrite]
    exact ⟨rfl, rfl, rfl⟩
  · rw [scanInputs_of_error houtput hwrite]
    exact ⟨rfl, rfl, rfl⟩

/-- The exit code is zero if no input fails and there is a place for the report. -/
theorem ScansEach.exitCode_eq_zero_iff {arguments : ScanArguments} {outcome : Outcome}
    (h : ScansEach sources settings arguments inputs outcome) :
    outcome.exitCode = 0 ↔ (∀ input ∈ inputs, isReadable sources input = true) ∧
      ∀ path, arguments.output = some path → ∃ files, sources.files.writeFile path
        (reportOf sources settings arguments inputs).toUTF8 = .ok files := by
  rw [Outcome.exitCode_eq_zero_iff]
  rcases houtput : arguments.output with _ | path
  · obtain ⟨-, -, hfailure⟩ := h.toOutput houtput
    rw [hfailure, failureOf_eq_none_iff]
    simp
  · rcases hwrite : sources.files.writeFile path
        (reportOf sources settings arguments inputs).toUTF8 with fault | files
    · obtain ⟨-, -, hfailure⟩ := h.nowhere houtput hwrite
      refine iff_of_false (by simp [hfailure]) fun hboth => ?_
      obtain ⟨files, hfiles⟩ := hboth.2 path rfl
      rw [hwrite] at hfiles
      cases hfiles
    · obtain ⟨-, -, hfailure⟩ := h.toFile houtput hwrite
      rw [hfailure, failureOf_eq_none_iff]
      refine (and_iff_left fun other hother => ?_).symm
      cases hother
      exact ⟨files, hwrite⟩

/-! ### Rendering and scanning paths -/

private theorem RendersEach.after {outcome : Outcome} {notices : List Notice}
    (h : RendersEach sources settings forced inputs outcome)
    (hnotices : notices.filter Notice.isError = []) :
    RendersEach sources settings forced inputs (outcome.after notices) := by
  refine ⟨h.output, ?_, h.failure⟩
  rw [Outcome.after, List.filter_append, hnotices, List.nil_append, h.errors]

/-- Rendering the inputs that paths stand for works on each one by itself. -/
theorem rendersEach_runRender {arguments : RenderArguments} (houtput : arguments.output = none)
    (h : collectInputs sources.files arguments.format arguments.paths = .ok inputs)
    (settings : Settings) (schedule : Schedule) :
    RendersEach sources settings arguments.format inputs
      (runRender arguments settings sources schedule) := by
  rw [runRender, h, houtput]
  exact (rendersEach_renderToOutput sources settings arguments.format inputs).after
    (by simp [Notice.isError])

/-- Scanning the inputs that paths stand for works on each one by itself. -/
theorem scansEach_runScan {arguments : ScanArguments}
    (h : collectInputs sources.files arguments.format arguments.paths = .ok inputs)
    (settings : Settings) :
    ScansEach sources settings arguments inputs (runScan arguments settings sources) := by
  rw [runScan, h]
  exact scansEach_scanInputs sources settings arguments inputs

/-- Both commands work on each input by itself. Inputs that fail do not change the markup or the
report: another run on inputs of which the same ones can be read, with the same texts, gives the
same. The exit code is zero if no input fails, unless there is no place for the report. -/
theorem runs_of_collectInputs {paths : List Path}
    (h : collectInputs sources.files forced paths = .ok inputs) (settings : Settings)
    (icons : Overrides) (schedule : Schedule) (pretty : Bool) (output : Option Path) :
    let rendering : RenderArguments := ⟨paths, none, icons, forced⟩
    let scanning : ScanArguments := ⟨paths, icons, forced, pretty, output⟩
    (readable sources inputs).map Prod.fst = inputs.filter (isReadable sources) ∧
      (unreadable sources inputs).map (·.input) =
        (inputs.filter fun input => !isReadable sources input) ∧
      RendersEach sources settings forced inputs (runRender rendering settings sources schedule) ∧
      ((runRender rendering settings sources schedule).exitCode = 0 ↔
        ∀ input ∈ inputs, isReadable sources input = true) ∧
      ScansEach sources settings scanning inputs (runScan scanning settings sources) ∧
      ((runScan scanning settings sources).exitCode = 0 ↔
        (∀ input ∈ inputs, isReadable sources input = true) ∧
          ∀ path, output = some path → ∃ files, sources.files.writeFile path
            (reportOf sources settings scanning inputs).toUTF8 = .ok files) ∧
      ∀ {sources' paths' inputs'}, collectInputs sources'.files forced paths' = .ok inputs' →
        readable sources' inputs' = readable sources inputs →
          (runRender { rendering with paths := paths' } settings sources' schedule).output =
              (runRender rendering settings sources schedule).output ∧
            reportOf sources' settings { scanning with paths := paths' } inputs' =
              reportOf sources settings scanning inputs ∧
            (output = none →
              (runScan { scanning with paths := paths' } settings sources').output =
                (runScan scanning settings sources).output) := by
  intro rendering scanning
  have hrenders : RendersEach sources settings forced inputs
      (runRender rendering settings sources schedule) :=
    rendersEach_runRender (show rendering.output = none from rfl) h ..
  have hscans : ScansEach sources settings scanning inputs (runScan scanning settings sources) :=
    scansEach_runScan h ..
  refine ⟨map_fst_readable .., map_input_unreadable .., hrenders, hrenders.exitCode_eq_zero_iff,
    hscans, hscans.exitCode_eq_zero_iff, fun {sources' paths' inputs'} h' hreadable => ?_⟩
  have hrenders' : RendersEach sources' settings forced inputs'
      (runRender { rendering with paths := paths' } settings sources' schedule) :=
    rendersEach_runRender (show ({ rendering with paths := paths' }).output = none from rfl) h' ..
  have hscans' : ScansEach sources' settings { scanning with paths := paths' } inputs'
      (runScan { scanning with paths := paths' } settings sources') := scansEach_runScan h' ..
  have hreport : reportOf sources' settings { scanning with paths := paths' } inputs' =
      reportOf sources settings scanning inputs := by
    rw [reportOf, recordsOf, hreadable]
    rfl
  refine ⟨?_, hreport, fun hnone => ?_⟩
  · rw [hrenders'.output, hrenders.output, hreadable]
  · rw [(hscans'.toOutput hnone).1, (hscans.toOutput hnone).1, hreport]

/-! ### A file that cannot be read -/

/-- The path of a note. -/
def notePath : Path := ⟨["note.html"]⟩

/-- The path of a file that is not text. -/
def brokenPath : Path := ⟨["broken.html"]⟩

/-- Both files. -/
def noteAndBroken : Sources :=
  let note := ({} : FileSystem).put notePath.pieces (.file ":fa-solid:x:".toUTF8)
  { files := note.put brokenPath.pieces (.file ⟨#[255]⟩), stdin := .empty }

/-- The file that is not text does not change the output for the note, but the exit code. -/
theorem runRender_noteAndBroken :
    collectInputs noteAndBroken.files none [brokenPath, notePath] =
        .ok [.file brokenPath none, .file notePath none] ∧
      (runRender ⟨[notePath], none, {}, none⟩ {} noteAndBroken .inOrder).output =
        (runRender ⟨[brokenPath, notePath], none, {}, none⟩ {} noteAndBroken .inOrder).output ∧
      (runRender ⟨[brokenPath, notePath], none, {}, none⟩ {} noteAndBroken .inOrder).exitCode ≠
        0 := by
  have hboth : collectInputs noteAndBroken.files none [brokenPath, notePath] =
      .ok [.file brokenPath none, .file notePath none] := by
    decide +kernel
  have hnote : collectInputs noteAndBroken.files none [notePath] = .ok [.file notePath none] := by
    decide +kernel
  have hbroken : Input.read (.file brokenPath none) noteAndBroken =
      .error ⟨.file brokenPath none, .notText⟩ := by
    decide +kernel
  obtain ⟨-, -, -, hexit, -, -, hsame⟩ :=
    runs_of_collectInputs hboth {} {} .inOrder false none
  refine ⟨hboth, (hsame hnote (readable_insert hbroken [] _).symm).1, fun hzero => ?_⟩
  have hreadable := hexit.mp hzero (.file brokenPath none) (List.mem_cons_self ..)
  rw [isReadable_of_error hbroken] at hreadable
  cases hreadable

/-- The path of a report in a directory that is missing. -/
def lostPath : Path := ⟨["missing", "icons.json"]⟩

/-- Without a place for the report, the exit code is not zero though no input fails. -/
theorem not_exitCode_runScan_eq_zero_iff :
    ¬ ∀ (arguments : ScanArguments) (settings : Settings) (sources : Sources)
      (inputs : List Input),
      collectInputs sources.files arguments.format arguments.paths = .ok inputs →
        ((runScan arguments settings sources).exitCode = 0 ↔
          ∀ input ∈ inputs, isReadable sources input = true) := by
  intro h
  have hnote : collectInputs noteAndBroken.files none [notePath] = .ok [.file notePath none] := by
    decide +kernel
  have hreadable : isReadable noteAndBroken (.file notePath none) = true := by
    decide +kernel
  have hlost : (runScan ⟨[notePath], {}, none, false, some lostPath⟩ {} noteAndBroken).exitCode =
      1 := by
    decide +kernel
  have hzero := (h ⟨[notePath], {}, none, false, some lostPath⟩ {} noteAndBroken _ hnote).mpr
    (by simpa using hreadable)
  rw [hlost] at hzero
  cases hzero

end IconMarkup.CommandLine
