import IconMarkup.Proofs.CommandLine.Work
import IconMarkup.Proofs.Input.Collected

/-!
# Inputs written over by other inputs

An input is never written over by its own output, but it can be written over by the output of
another input. `runRender_keeps_inputs_iff` says exactly when that can happen: the inputs keep
their content in every order of the work if and only if no input has a target that leads to another
input, with other content than the markup that it is rendered to. What carries the proof is an
invariant of the work (`Faithful`): as long as all inputs have their content, every input is
rendered to the same markup as at the start, and a target that leads to an input has led there from
the start (`resolve_targetOf`).
-/

namespace IconMarkup

open Config Files CommandLine

/-- Whether an input is the file at a place. -/
def Input.StandsAt (files : FileSystem) (place : Location) : Input → Prop
  | .stdin => False
  | .file path _ => files.resolve path = .ok place

/-- Whether one of the inputs is the file at a place, with this content. -/
def IsInputFile (files : FileSystem) (inputs : List Input) (place : Location)
    (content : ByteArray) : Prop :=
  (∃ input ∈ inputs, input.StandsAt files place) ∧ files.get? place = some (.file content)

namespace CommandLine

/-- Whether an input that is not the file at a place is rendered to something else than the content
there, and has a target that leads there. -/
structure Clobbers (settings : Settings) (forced : Option DocumentFormat) (directory : Path)
    (sources : Sources) (writer : Input) (place : Location) (content : ByteArray) : Prop where
  target : sources.files.resolve (targetOf directory writer) = .ok place
  other : ¬ writer.StandsAt sources.files place
  differs : ∃ rendered, renderInput sources settings forced writer = .ok rendered ∧
    rendered.html.toUTF8 ≠ content

/-- What is there when the work begins: the output directory, and the inputs, with output names that
go down only. -/
structure Prepared (directory : Path) (inputs : List Input) (ready : Sources) : Prop where
  directory : directory.isEmpty = true ∨ ready.files.isDirectory directory = true
  files : ∀ {path root}, .file path root ∈ inputs → ready.files.isFile path = true
  descends : ∀ {input}, input ∈ inputs → input.outputName.Descends

variable {settings : Settings} {forced : Option DocumentFormat} {directory : Path}
  {inputs : List Input} {ready : Sources}

/-- Comparing an input with a target that leads somewhere. -/
private theorem overwritten?_eq_none_iff {files : FileSystem} {target : Path} {place : Location}
    {input : Input} (h : files.resolve target = .ok place) :
    overwritten? files target input = none ↔ ¬ input.StandsAt files place := by
  cases input with
  | stdin => simp [overwritten?, Input.StandsAt]
  | file path root =>
    rw [overwritten?, Input.StandsAt]
    rcases hpath : files.resolve path with fault | location
    · simp [FileSystem.sameFile, hpath]
    · simp [FileSystem.sameFile, hpath, h]

/-- A target that leads to an input after growth has led there from the start. -/
theorem resolve_targetOf (hready : Prepared directory inputs ready) {files : FileSystem}
    (hgrows : ready.files.Grows files) {input : Input} (hinput : input ∈ inputs) {place : Location}
    {content : ByteArray} (hfile : ready.files.get? place = some (.file content))
    (h : files.resolve (targetOf directory input) = .ok place) :
    ready.files.resolve (targetOf directory input) = .ok place := by
  have hname := hready.descends hinput
  rcases hempty : directory.isEmpty with _ | _
  -- the name is followed from the output directory, whose place has not changed
  · obtain ⟨start, hstart, -⟩ := FileSystem.isDirectory_eq_true_iff.mp
      (hready.directory.resolve_left (by simp [hempty]))
    rw [targetOf, FileSystem.resolve_join_eq_ok_iff hempty hname.nonempty hname.relative] at h ⊢
    obtain ⟨start', hstart', hfollow⟩ := h
    rw [hgrows.resolve hstart] at hstart'
    cases hstart'
    exact ⟨start, hstart, hgrows.followAll_of_descends hname hfollow hfile⟩
  -- without an output directory it is followed from the working directory
  · rw [targetOf, FileSystem.join_of_isEmpty hempty, FileSystem.resolve_eq_ok_iff,
      FileSystem.origin] at h ⊢
    rw [hgrows.workingDirectory] at h
    exact ⟨h.1, hgrows.followAll_of_descends hname h.2 hfile⟩

/-! ### Orders that keep the inputs -/

/-- Whether what is known about a task agrees with the start: it was rendered to the markup that it
is rendered to at the start, and it was found not to be the place that its target leads to. -/
def Task.Faithful (settings : Settings) (forced : Option DocumentFormat) (directory : Path)
    (ready : Sources) (task : Task) : Prop :=
  match task.stage with
  | .rendered result => renderInput ready settings forced task.input = .ok result
  | .compared result | .placed result =>
    renderInput ready settings forced task.input = .ok result ∧
      ∀ place, ready.files.resolve (targetOf directory task.input) = .ok place →
        ¬ task.input.StandsAt ready.files place
  | _ => True

/-- The invariant of orders that keep the inputs: all inputs have their content, and what is known
about each task agrees with the start. -/
structure Work.Faithful (settings : Settings) (forced : Option DocumentFormat) (directory : Path)
    (inputs : List Input) (ready : Sources) (work : Work) : Prop where
  grows : ready.files.Grows work.sources.files
  stdin : work.sources.stdin = ready.stdin
  kept : ∀ {place content}, IsInputFile ready.files inputs place content →
    work.sources.files.get? place = some (.file content)
  inputs : ∀ task ∈ work.tasks, task.input ∈ inputs
  tasks : ∀ task ∈ work.tasks, task.Faithful settings forced directory ready

/-- As long as the inputs have their content, each one is rendered as at the start. -/
theorem Work.Faithful.renderInput_eq (hready : Prepared directory inputs ready) {work : Work}
    (h : work.Faithful settings forced directory inputs ready) {input : Input}
    (hinput : input ∈ inputs) :
    renderInput work.sources settings forced input = renderInput ready settings forced input := by
  have hread : input.read work.sources = input.read ready := by
    cases input with
    | stdin => rw [Input.read, Input.read, h.stdin]
    | file path root =>
      obtain ⟨place, content, hresolve, hfile⟩ :=
        FileSystem.isFile_eq_true_iff.mp (hready.files hinput)
      have hkept := h.kept ⟨⟨_, hinput, hresolve⟩, hfile⟩
      simp only [Input.read, FileSystem.readText, hresolve, h.grows.resolve hresolve, hfile, hkept,
        bind, Except.bind]
  rw [renderInput, renderInput, hread]

/-- Nothing becomes or stops being an input when nothing happens but that directories are made. -/
theorem isInputFile_iff_of_extends {files files' : FileSystem} (h : files.Extends files')
    (hfiles : ∀ {path root}, .file path root ∈ inputs → files.isFile path = true)
    {place : Location} {content : ByteArray} :
    IsInputFile files' inputs place content ↔ IsInputFile files inputs place content := by
  have hstands : ∀ input ∈ inputs, input.StandsAt files' place ↔
      input.StandsAt files place ∧ (files.get? place).isSome := by
    intro input hinput
    cases input with
    | stdin => simp [Input.StandsAt]
    | file path root =>
      obtain ⟨place', content', hresolve, hfile⟩ :=
        FileSystem.isFile_eq_true_iff.mp (hfiles hinput)
      rw [Input.StandsAt, Input.StandsAt, hresolve, h.grows.resolve hresolve]
      constructor
      · intro heq
        cases heq
        simp [hfile]
      · exact fun heq => heq.1
  constructor
  · rintro ⟨⟨input, hinput, hplace⟩, hcontent⟩
    obtain ⟨hplace', hsome⟩ := (hstands input hinput).mp hplace
    obtain ⟨entry, hentry⟩ := Option.isSome_iff_exists.mp hsome
    rw [h.entry hentry] at hcontent
    exact ⟨⟨input, hinput, hplace'⟩, hcontent ▸ hentry⟩
  · rintro ⟨⟨input, hinput, hplace⟩, hcontent⟩
    have hsome : (files.get? place).isSome := by
      rw [hcontent]
      rfl
    exact ⟨⟨input, hinput, (hstands input hinput).mpr ⟨hplace, hsome⟩⟩, h.entry hcontent⟩

/-- A step of a task leaves the content of all inputs when no target leads to another input with
other content. -/
private theorem Work.Faithful.get?_next (hready : Prepared directory inputs ready)
    (hsafe : ∀ writer ∈ inputs, ∀ place content, IsInputFile ready.files inputs place content →
      ¬ Clobbers settings forced directory ready writer place content)
    {work : Work} (h : work.Faithful settings forced directory inputs ready) {task : Task}
    (htask : task ∈ work.tasks) {place : Location} {content : ByteArray}
    (hinput : IsInputFile ready.files inputs place content) :
    (task.stage.next settings forced directory work.sources task.input).1.get? place =
      some (.file content) := by
  have hkept := h.kept hinput
  have hfaithful := h.tasks task htask
  obtain ⟨input, stage⟩ := task
  cases stage with
  | waiting =>
    rw [Stage.next]
    split <;> exact hkept
  | rendered result =>
    rw [Stage.next]
    split <;> exact hkept
  | compared result =>
    -- making directories touches no file
    have hextends := FileSystem.extends_makeDirectories work.sources.files
      ((targetOf directory input).parent?.getD .empty)
    rw [Stage.next]
    split <;> rename_i hmake <;> rw [hmake] at hextends <;> exact hextends.entry hkept
  | placed result =>
    rw [Stage.next]
    split
    · exact hkept
    · rename_i files hwrite
      obtain ⟨place', rfl, hplace'⟩ := FileSystem.writeFile_eq_ok hwrite
      rcases eq_or_ne place place' with rfl | hne
      · -- the target leads to an input, and so what is written is the content that was there
        have hresolve : work.sources.files.resolve (targetOf directory input) = .ok place :=
          hplace'.resolve_right (by simp [hkept])
        have hresolve' := resolve_targetOf hready h.grows (h.inputs _ htask) hinput.2 hresolve
        have hsame : result.html.toUTF8 = content := by
          by_contra hdiffers
          exact hsafe input (h.inputs _ htask) place content hinput
            ⟨hresolve', hfaithful.2 place hresolve', result, hfaithful.1, hdiffers⟩
        rw [hsame]
        exact FileSystem.get?_put_self (by simp [FileSystem.admits, hkept])
      · rw [FileSystem.get?_put_of_ne _ hne, hkept]
  | finished written => exact hkept

/-- What a step of a task finds out agrees with the start. -/
private theorem Work.Faithful.faithful_next (hready : Prepared directory inputs ready) {work : Work}
    (h : work.Faithful settings forced directory inputs ready) {task : Task}
    (htask : task ∈ work.tasks) :
    Task.Faithful settings forced directory ready
      ⟨task.input, (task.stage.next settings forced directory work.sources task.input).2⟩ := by
  have hfaithful := h.tasks task htask
  have hinput := h.inputs task htask
  obtain ⟨input, stage⟩ := task
  cases stage with
  | waiting =>
    rw [Stage.next, h.renderInput_eq hready hinput]
    split
    · trivial
    · assumption
  | rendered result =>
    rw [Stage.next]
    split
    · trivial
    · rename_i hcompared
      refine ⟨hfaithful, fun place hplace hstands => ?_⟩
      -- both paths lead to the same places as at the start
      have hnot := (overwritten?_eq_none_iff (h.grows.resolve hplace)).mp hcompared
      cases input with
      | stdin => exact hstands
      | file path root => exact hnot (h.grows.resolve hstands)
  | compared result =>
    rw [Stage.next]
    split
    · trivial
    · exact hfaithful
  | placed result =>
    rw [Stage.next]
    split <;> trivial
  | finished written => trivial

/-- A step keeps the invariant when no target leads to another input with other content. -/
theorem Work.Faithful.advance (hready : Prepared directory inputs ready)
    (hsafe : ∀ writer ∈ inputs, ∀ place content, IsInputFile ready.files inputs place content →
      ¬ Clobbers settings forced directory ready writer place content)
    {work : Work} (h : work.Faithful settings forced directory inputs ready) (position : Nat) :
    (work.advance settings forced directory position).Faithful settings forced directory inputs
      ready := by
  rcases hposition : work.tasks[position]? with _ | task
  · rwa [Work.advance_of_none hposition]
  have htask : task ∈ work.tasks := List.mem_of_getElem? hposition
  -- only the task at the position is another one afterwards
  refine ⟨h.grows.trans (Work.grows_advance work position), by rw [Work.stdin_advance, h.stdin],
    fun hinput => ?_, fun other hother => ?_, fun other hother => ?_⟩
  · rw [Work.files_advance hposition]
    exact h.get?_next hready hsafe htask hinput
  all_goals
    rw [Work.tasks_advance hposition] at hother
    rcases List.mem_or_eq_of_mem_set hother with hother | rfl
  · exact h.inputs other hother
  · exact h.inputs task htask
  · exact h.tasks other hother
  · exact h.faithful_next hready htask

/-- A run keeps the invariant when no target leads to another input with other content. -/
theorem Work.Faithful.run (hready : Prepared directory inputs ready)
    (hsafe : ∀ writer ∈ inputs, ∀ place content, IsInputFile ready.files inputs place content →
      ¬ Clobbers settings forced directory ready writer place content)
    {work : Work} (h : work.Faithful settings forced directory inputs ready)
    (positions : List Nat) :
    (work.run settings forced directory positions).Faithful settings forced directory inputs
      ready := by
  induction positions generalizing work with
  | nil => exact h
  | cons position positions ih => exact ih (h.advance hready hsafe position)

theorem Work.faithful_start (settings : Settings) (forced : Option DocumentFormat)
    (directory : Path) (inputs : List Input) (ready : Sources) :
    (Work.start ready inputs).Faithful settings forced directory inputs ready := by
  refine ⟨.refl _, rfl, fun hinput => hinput.2, fun task htask => ?_, fun task htask => ?_⟩ <;>
    obtain ⟨input, hinput, rfl⟩ := List.mem_map.mp htask
  · exact hinput
  · trivial

/-! ### An order that changes an input -/

/-- All steps on the inputs that are not at a position. -/
def stepsBeside (count position : Nat) : List Nat :=
  ((List.range count).filter (· ≠ position)).flatMap fun other =>
    List.replicate Stage.steps other

/-- Renders the input at a position, then brings the work on all others to its end, and then goes on
with the work on this input. -/
def Schedule.lastToWrite (position : Nat) : Schedule := fun count =>
  position :: (stepsBeside count position ++ [position, position, position])

private theorem notMem_stepsBeside (count position : Nat) :
    position ∉ stepsBeside count position := by
  simp [stepsBeside]

private theorem count_lastToWrite {count position other : Nat} (hother : other < count) :
    (Schedule.lastToWrite position count).count other = Stage.steps := by
  rw [Schedule.lastToWrite, List.count_cons, List.count_append, stepsBeside,
    Work.count_flatMap_replicate]
  rcases eq_or_ne other position with rfl | hne
  · rw [List.count_eq_zero.mpr (by simp)]
    simp [Stage.steps]
  · rw [List.count_filter (by simpa using hne), List.count_range, if_pos hother]
    simp [Ne.symm hne, Stage.steps]

/-- An input that is not the file at a place does not become it. -/
private theorem not_standsAt_of_grows (hready : Prepared directory inputs ready)
    {files : FileSystem}
    (hgrows : ready.files.Grows files) {input : Input} (hinput : input ∈ inputs) {place : Location}
    (h : ¬ input.StandsAt ready.files place) : ¬ input.StandsAt files place := by
  cases input with
  | stdin => exact id
  | file path root =>
    obtain ⟨place', -, hresolve, -⟩ := FileSystem.isFile_eq_true_iff.mp (hready.files hinput)
    rw [Input.StandsAt, hresolve] at h
    rwa [Input.StandsAt, hgrows.resolve hresolve]

theorem Stage.next_waiting (directory : Path) {sources : Sources} {input : Input}
    {result : Rendered} (h : renderInput sources settings forced input = .ok result) :
    Stage.next settings forced directory sources input .waiting =
      (sources.files, .rendered result) := by
  rw [Stage.next, h]

theorem Stage.next_rendered (settings : Settings) (forced : Option DocumentFormat)
    {sources : Sources} {input : Input} {result : Rendered}
    (h : overwritten? sources.files (targetOf directory input) input = none) :
    (Stage.rendered result).next settings forced directory sources input =
      (sources.files, .compared result) := by
  rw [Stage.next, h]

theorem Stage.next_compared (settings : Settings) (forced : Option DocumentFormat)
    {sources : Sources} {input : Input} {result : Rendered} {files : FileSystem}
    (h : sources.files.makeDirectories ((targetOf directory input).parent?.getD .empty) =
      (files, none)) :
    (Stage.compared result).next settings forced directory sources input =
      (files, .placed result) := by
  rw [Stage.next, h]

theorem Stage.next_placed (settings : Settings) (forced : Option DocumentFormat)
    {sources : Sources} {input : Input} {result : Rendered} {files : FileSystem}
    (h : sources.files.writeFile (targetOf directory input) result.html.toUTF8 = .ok files) :
    (Stage.placed result).next settings forced directory sources input =
      (files, .finished ⟨some result, none⟩) := by
  rw [Stage.next, h]

/-- What has been rendered is written over the file that the target leads to, if that is not the
input itself. -/
private theorem Work.get?_run_of_rendered {work : Work} {position : Nat} {writer : Input}
    {rendered : Rendered} (htask : work.tasks[position]? = some ⟨writer, .rendered rendered⟩)
    {place : Location} {old : ByteArray}
    (htarget : work.sources.files.resolve (targetOf directory writer) = .ok place)
    (hfile : work.sources.files.get? place = some (.file old))
    (hother : ¬ writer.StandsAt work.sources.files place) :
    (work.run settings forced directory [position, position, position]).sources.files.get? place =
      some (.file rendered.html.toUTF8) := by
  simp only [run_cons, run_nil]
  -- the target is compared with the input only, not with other inputs
  obtain ⟨hfiles, htask⟩ := advance_of_next htask
    (Stage.next_rendered settings forced ((overwritten?_eq_none_iff htarget).mpr hother))
  generalize work.advance settings forced directory position = compared at hfiles htask ⊢
  rw [← hfiles] at htarget hfile
  -- the directory of the target is there, since a file stands in it
  obtain ⟨hfiles, htask⟩ := advance_of_next htask
    (Stage.next_compared settings forced (FileSystem.makeDirectories_parent? htarget hfile))
  generalize compared.advance settings forced directory position = placed at hfiles htask ⊢
  rw [← hfiles] at htarget hfile
  obtain ⟨hwrite, hwritten⟩ :=
    FileSystem.writeFile_of_file rendered.html.toUTF8 htarget hfile
  obtain ⟨hfiles, -⟩ := advance_of_next htask (Stage.next_placed settings forced hwrite)
  rw [hfiles, hwritten]

/-- When the target of an input leads to another one, the order that renders it first and writes it
last leaves its markup there. -/
theorem Work.get?_run_lastToWrite (hready : Prepared directory inputs ready) {position : Nat}
    {writer : Input} (hwriter : inputs[position]? = some writer) {rendered : Rendered}
    (hrendered : renderInput ready settings forced writer = .ok rendered) {place : Location}
    {old : ByteArray} (htarget : ready.files.resolve (targetOf directory writer) = .ok place)
    (hfile : ready.files.get? place = some (.file old))
    (hother : ¬ writer.StandsAt ready.files place) :
    ((start ready inputs).run settings forced directory
      ((Schedule.lastToWrite position).positions inputs.length)).sources.files.get? place =
        some (.file rendered.html.toUTF8) := by
  have hmem : writer ∈ inputs := List.mem_of_getElem? hwriter
  have hover : ((start ready inputs).run settings forced directory
      (Schedule.lastToWrite position inputs.length)).IsOver :=
    isOver_run fun other hlt => by
      rw [start, List.length_map] at hlt
      exact (count_lastToWrite hlt).ge
  -- the steps that every schedule is followed by find nothing left to do
  rw [Schedule.positions, run_append, run_of_isOver hover, Schedule.lastToWrite,
    ← List.cons_append, run_append]
  have hstart : (start ready inputs).tasks[position]? = some ⟨writer, .waiting⟩ := by
    rw [start, List.getElem?_map, hwriter]
    rfl
  obtain ⟨-, htask⟩ := advance_of_next hstart (Stage.next_waiting directory hrendered)
  rw [← getElem?_run_of_notMem (notMem_stepsBeside inputs.length position), ← run_cons] at htask
  have hgrows : ready.files.Grows ((start ready inputs).run settings forced directory
      (position :: stepsBeside inputs.length position)).sources.files :=
    grows_run (start ready inputs) _
  -- another input may have been written there before, but it is a file still
  obtain ⟨old', hfile'⟩ := hgrows.file hfile
  exact get?_run_of_rendered htask (hgrows.resolve htarget) hfile'
    (not_standsAt_of_grows hready hgrows hmem hother)

/-! ### Inputs of a run -/

/-- Inputs that have been collected are there when the work begins. -/
theorem prepared_of_collectInputs {sources : Sources} {forced : Option DocumentFormat}
    {paths : List Path} {files : FileSystem}
    (hinputs : collectInputs sources.files forced paths = .ok inputs)
    (hmade : sources.files.makeDirectories directory = (files, none)) :
    Prepared directory inputs { sources with files } := by
  have hextends := FileSystem.extends_makeDirectories sources.files directory
  rw [hmade] at hextends
  have hcollected := collected_of_mem hinputs
  refine ⟨FileSystem.isDirectory_of_makeDirectories hmade, fun hinput => ?_, fun hinput =>
    (hcollected _ hinput).descends_outputName⟩
  obtain ⟨place, content, hresolve, hfile⟩ :=
    FileSystem.isFile_eq_true_iff.mp (hcollected _ hinput).isFile
  exact FileSystem.isFile_eq_true_iff.mpr
    ⟨place, content, hextends.grows.resolve hresolve, hextends.entry hfile⟩

/-- The files that rendering to a directory leaves behind, once the directory has been made. -/
theorem files_renderToDirectory {sources : Sources} {schedule : Schedule} {files : FileSystem}
    (hmade : sources.files.makeDirectories directory = (files, none)) :
    (renderToDirectory sources settings forced schedule directory inputs).files =
      ((Work.start { sources with files } inputs).run settings forced directory
        (schedule.positions inputs.length)).sources.files := by
  rw [renderToDirectory, hmade]

theorem files_runRender {arguments : RenderArguments} {sources : Sources} {schedule : Schedule}
    (houtput : arguments.output = some directory)
    (hinputs : collectInputs sources.files arguments.format arguments.paths = .ok inputs) :
    (runRender arguments settings sources schedule).files =
      (renderToDirectory sources settings arguments.format schedule directory inputs).files := by
  rw [runRender, hinputs]
  simp only [houtput]
  rfl

/-- When some inputs are rendered to files below a directory, all inputs keep their content in
every order of the work if and only if no input has a target that leads to another input, with
other content than the markup that it is rendered to. -/
theorem runRender_keeps_inputs_iff {arguments : RenderArguments} (settings : Settings)
    {sources : Sources} {directory : Path} {inputs : List Input}
    (houtput : arguments.output = some directory)
    (hinputs : collectInputs sources.files arguments.format arguments.paths = .ok inputs) :
    (∀ schedule place content, IsInputFile sources.files inputs place content →
      (runRender arguments settings sources schedule).files.get? place = some (.file content)) ↔
    ∀ files, sources.files.makeDirectories directory = (files, none) →
      ∀ writer ∈ inputs, ∀ place content, IsInputFile sources.files inputs place content →
        ¬ Clobbers settings arguments.format directory { sources with files } writer place
          content := by
  have hextends := FileSystem.extends_makeDirectories sources.files directory
  have hsame : ∀ {place content}, IsInputFile _ inputs place content ↔
      IsInputFile sources.files inputs place content :=
    isInputFile_iff_of_extends hextends fun hinput => (collected_of_mem hinputs _ hinput).isFile
  simp only [files_runRender houtput hinputs]
  constructor
  · rintro hkept files hmade writer hwriter place content hinput ⟨htarget, hother, rendered,
      hrendered, hdiffers⟩
    have hready := prepared_of_collectInputs hinputs hmade
    rw [hmade] at hsame
    obtain ⟨position, hposition⟩ := List.getElem?_of_mem hwriter
    -- in this order, the markup of the writer is there in the end
    have hwritten := Work.get?_run_lastToWrite hready hposition hrendered htarget
      (hsame.mpr hinput).2 hother
    rw [← files_renderToDirectory hmade, hkept _ place content hinput] at hwritten
    cases hwritten
    exact hdiffers rfl
  · intro hsafe schedule place content hinput
    rcases hmade : sources.files.makeDirectories directory with ⟨files, _ | fault⟩
    · have hready := prepared_of_collectInputs hinputs hmade
      rw [hmade] at hsame
      have hfaithful := (Work.faithful_start settings arguments.format directory inputs _).run
        hready (fun writer hwriter place content hinput =>
          hsafe files hmade writer hwriter place content (hsame.mp hinput))
        (schedule.positions inputs.length)
      rw [files_renderToDirectory hmade]
      exact hfaithful.kept (hsame.mpr hinput)
    · -- without the output directory nothing is rendered
      rw [hmade] at hextends
      rw [renderToDirectory, hmade]
      exact hextends.entry hinput.2

/-- The path of a page in the working directory. -/
def pagePath : Path := ⟨["page.html"]⟩

/-- The path of a draft of the page, in a directory there. -/
def draftPath : Path := ⟨["drafts", "page.html"]⟩

/-- A page and a draft of it. -/
def pageWithDraft : Sources :=
  let drafts := ({} : FileSystem).put ["drafts"] .directory
  let draft := drafts.put draftPath.pieces (.file "new".toUTF8)
  { files := draft.put pagePath.pieces (.file "old".toUTF8), stdin := .empty }

/-- Rendering both to the working directory leaves the draft in the place of the page, in some
order. -/
theorem not_runRender_keeps_page :
    collectInputs pageWithDraft.files none [draftPath, pagePath] =
        .ok [.file draftPath none, .file pagePath none] ∧
      ¬ ∀ schedule place content,
        IsInputFile pageWithDraft.files [.file draftPath none, .file pagePath none] place content →
          (runRender ⟨[draftPath, pagePath], some ⟨["."]⟩, {}, none⟩ {} pageWithDraft
            schedule).files.get? place = some (.file content) := by
  have hinputs : collectInputs pageWithDraft.files none [draftPath, pagePath] =
      .ok [.file draftPath none, .file pagePath none] := by
    decide +kernel
  refine ⟨hinputs, fun hkept => ?_⟩
  have hmade : pageWithDraft.files.makeDirectories ⟨["."]⟩ = (pageWithDraft.files, none) :=
    FileSystem.makeDirectories_of_isDirectory (by decide +kernel)
  have hpage : pageWithDraft.files.resolve pagePath = .ok ["page.html"] := by
    decide +kernel
  have htarget : pageWithDraft.files.resolve (targetOf ⟨["."]⟩ (.file draftPath none)) =
      .ok ["page.html"] := by
    decide +kernel
  have hother : pageWithDraft.files.resolve draftPath ≠ .ok ["page.html"] := by
    decide +kernel
  have hrendered : renderInput pageWithDraft {} none (.file draftPath none) =
      .ok ⟨"new", 0, 3, .html⟩ := by
    decide +kernel
  have hinput : IsInputFile pageWithDraft.files [.file draftPath none, .file pagePath none]
      ["page.html"] "old".toUTF8 :=
    ⟨⟨.file pagePath none, by simp, hpage⟩, rfl⟩
  exact (runRender_keeps_inputs_iff {} rfl hinputs).mp hkept pageWithDraft.files hmade
    (.file draftPath none) (by simp) ["page.html"] "old".toUTF8 hinput
    ⟨htarget, hother, _, hrendered, by decide +kernel⟩

end CommandLine

end IconMarkup
