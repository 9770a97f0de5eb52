import IconMarkup.Proofs.CommandLine.Overwriting
import IconMarkup.Proofs.Files.Making
import IconMarkup.Proofs.Input.OutputNames

/-!
# Work on inputs that do not hinder each other

When no output stands where the output of another input goes, or on the way there, every step comes
to what it would come to at the start: whether the directories of an output can be made (`CanPlace`)
and whether it can be written (`CanWrite`) is decided by the files at the start. The invariant
(`Work.Undisturbed`) says so for each task, and it says that the files are those at the start, with
the directories that the tasks have made and the files that they have written (`Work.Made`,
`Work.Wrote`) and nothing else.
-/

namespace IconMarkup

open Config Files CommandLine

namespace CommandLine

/-- Whether the directories on the way to the output have been made. -/
def Stage.hasPlaced : Stage → Bool
  | .placed _ | .finished ⟨_, none⟩ | .finished ⟨_, some (.unwritable ..)⟩ => true
  | _ => false

/-- Whether the work on an input has ended without an error. -/
def Stage.isWritten : Stage → Bool
  | .finished written => written.error.isNone
  | _ => false

/-- The markup that has been written. -/
def Stage.output? : Stage → Option String
  | .finished ⟨some result, none⟩ => some result.html
  | _ => none

/-- Whether the directories on the way to the output of an input can be made: it is rendered, it is
not the file at the place of its output, and no other file blocks the way. -/
structure CanPlace (settings : Settings) (forced : Option DocumentFormat) (ready : Sources)
    (base : Location) (input : Input) : Prop where
  rendered : ∃ result, renderInput ready settings forced input = .ok result
  other : ¬ input.StandsAt ready.files (base ++ input.outputName.pieces)
  free : ¬ ready.files.Blocked base input.outputName.pieces.dropLast

/-- Whether the output of an input can be written: its name is that of an entry, and no directory
stands in its place. -/
structure CanWrite (settings : Settings) (forced : Option DocumentFormat) (ready : Sources)
    (base : Location) (input : Input) : Prop extends
    CanPlace settings forced ready base input where
  named : ∀ name ∈ input.outputName.pieces, isEntryName name = true
  notDirectory : ready.files.get? (base ++ input.outputName.pieces) ≠ some .directory

/-- Whether the output of an input stands where the output of another one goes, or on the way
there. -/
structure Hinders (settings : Settings) (forced : Option DocumentFormat) (ready : Sources)
    (base : Location) (first second : Input) : Prop where
  written : CanWrite settings forced ready base first
  placed : CanPlace settings forced ready base second
  starts : first.outputName.pieces <+: second.outputName.pieces

/-- Whether no input hinders another one. -/
def NoneHinders (settings : Settings) (forced : Option DocumentFormat) (ready : Sources)
    (base : Location) (inputs : List Input) : Prop :=
  ∀ {first second : Nat} {a b : Input}, first ≠ second → inputs[first]? = some a →
    inputs[second]? = some b → ¬ Hinders settings forced ready base a b

/-- What is there when the work begins, with the place of the output directory. -/
structure PreparedAt (base : Location) (directory : Path) (inputs : List Input) (ready : Sources) :
    Prop where
  named : directory.isEmpty = false
  resolve : ready.files.resolve directory = .ok base
  place : ready.files.get? base = some .directory
  straight : ∀ {input}, input ∈ inputs → input.outputName.Straight
  prepared : Prepared directory inputs ready

variable {settings : Settings} {forced : Option DocumentFormat} {directory : Path}
  {inputs : List Input} {ready : Sources} {base : Location} {input : Input}

/-! ### Places of outputs -/

/-- The output of an input has its place below the base, also when other outputs have been added. -/
theorem PreparedAt.goesOn (h : PreparedAt base directory inputs ready) (hinput : input ∈ inputs)
    {files : FileSystem} (hgrows : ready.files.Grows files) :
    files.GoesOn (targetOf directory input) base input.outputName.pieces :=
  (FileSystem.goesOn_join h.named h.resolve h.place (h.prepared.descends hinput).nonempty
    (h.prepared.descends hinput).relative).grows hgrows

/-- A target that leads to a file leads to the place of the output, whose name is that of an
entry. -/
private theorem PreparedAt.eq_of_resolve (h : PreparedAt base directory inputs ready)
    (hinput : input ∈ inputs) {files : FileSystem} (hgrows : ready.files.Grows files)
    {place : Location} {content : ByteArray}
    (hresolve : files.resolve (targetOf directory input) = .ok place)
    (hfile : files.get? place = some (.file content)) :
    place = base ++ input.outputName.pieces ∧
      ∀ name ∈ input.outputName.pieces, isEntryName name = true := by
  have hgoes := h.goesOn hinput hgrows
  obtain ⟨names, last, hpieces, hnames, -⟩ := h.straight hinput
  rw [hgoes.resolve_eq] at hresolve
  obtain ⟨before, name, -, hconcat, hname, -⟩ :=
    FileSystem.exists_of_followAll_file (by simp [hpieces]) hresolve hfile
  have hentries : ∀ name ∈ input.outputName.pieces, isEntryName name = true := by
    rw [hpieces] at hconcat ⊢
    obtain ⟨rfl, hlast⟩ := List.append_inj' hconcat rfl
    cases hlast
    exact List.forall_mem_append.mpr ⟨hnames, by simpa using hname⟩
  exact ⟨((FileSystem.followAll_names_eq_ok_iff hentries hgoes.directory).mp hresolve).1, hentries⟩

/-- Where something stands at the place of an output, the target leads there. -/
theorem PreparedAt.resolve_targetOf (h : PreparedAt base directory inputs ready)
    (hinput : input ∈ inputs) {files : FileSystem} (hgrows : ready.files.Grows files)
    (hsome : (files.get? (base ++ input.outputName.pieces)).isSome) :
    files.resolve (targetOf directory input) = .ok (base ++ input.outputName.pieces) := by
  have hgoes := h.goesOn hinput hgrows
  rw [hgoes.resolve_eq]
  exact (FileSystem.followAll_names_eq_ok_iff (isEntryName_of_append hsome)
    hgoes.directory).mpr ⟨rfl, hsome⟩

/-- Something stands where an input file stands. -/
private theorem PreparedAt.isSome_of_standsAt (h : PreparedAt base directory inputs ready)
    (hinput : input ∈ inputs) {place : Location} (hstands : input.StandsAt ready.files place) :
    (ready.files.get? place).isSome := by
  cases input with
  | stdin => exact hstands.elim
  | file path root =>
    obtain ⟨place', content, hresolve, hfile⟩ :=
      FileSystem.isFile_eq_true_iff.mp (h.prepared.files hinput)
    cases hresolve.symm.trans hstands
    rw [hfile]
    rfl

/-- An input over which its output would be written is the file at the place of the output. -/
theorem PreparedAt.standsAt_of_overwritten? (h : PreparedAt base directory inputs ready)
    (hinput : input ∈ inputs) {files : FileSystem} (hgrows : ready.files.Grows files)
    {overwritten : Path}
    (hoverwritten : overwritten? files (targetOf directory input) input = some overwritten) :
    input.StandsAt ready.files (base ++ input.outputName.pieces) := by
  cases input with
  | stdin => cases hoverwritten
  | file path root =>
    obtain ⟨place, content, hresolve, hfile⟩ :=
      FileSystem.isFile_eq_true_iff.mp (h.prepared.files hinput)
    obtain ⟨content', hfile'⟩ := hgrows.file hfile
    have hsame : files.resolve (targetOf directory (.file path root)) = .ok place := by
      simp only [overwritten?, FileSystem.sameFile, hgrows.resolve hresolve,
        Option.ite_none_right_eq_some] at hoverwritten
      rcases htarget : files.resolve (targetOf directory (.file path root)) with fault | other
      · simp [htarget] at hoverwritten
      · simp only [htarget, beq_iff_eq] at hoverwritten
        rw [hoverwritten.1]
    rw [← (h.eq_of_resolve hinput hgrows hsame hfile').1]
    exact hresolve

/-! ### What has been made and written -/

/-- Whether a place is on the way to the output of a task that has made its directories. -/
def Task.Made (base : Location) (task : Task) (location : Location) : Prop :=
  task.stage.hasPlaced = true ∧
    ∃ passed, passed <+: task.input.outputName.pieces.dropLast ∧ location = base ++ passed

/-- Whether a task has written a file at a place. -/
def Task.Wrote (base : Location) (task : Task) (location : Location) (content : ByteArray) : Prop :=
  ∃ html, task.stage.output? = some html ∧ location = base ++ task.input.outputName.pieces ∧
    content = html.toUTF8

/-- Whether a directory at a place has been made by a task. -/
def Work.Made (base : Location) (work : Work) (location : Location) : Prop :=
  ∃ (position : Nat) (task : Task), work.tasks[position]? = some task ∧ task.Made base location

/-- Whether a file at a place has been written by a task. -/
def Work.Wrote (base : Location) (work : Work) (location : Location) (content : ByteArray) :
    Prop :=
  ∃ (position : Nat) (task : Task), work.tasks[position]? = some task ∧
    task.Wrote base location content

/-- What is known about the work on an input at a stage: whether it has come as far as it can come
from the files at the start. -/
inductive Judged (settings : Settings) (forced : Option DocumentFormat) (ready : Sources)
    (base : Location) (input : Input) : Stage → Prop
  | waiting : Judged settings forced ready base input .waiting
  | rendered {result : Rendered} : Judged settings forced ready base input (.rendered result)
  | compared {result : Rendered} : Judged settings forced ready base input (.compared result)
  | placed {result : Rendered} (h : CanPlace settings forced ready base input) :
    Judged settings forced ready base input (.placed result)
  | stopped {rendered : Option Rendered} {error : WriteError}
    (h : ¬ CanPlace settings forced ready base input)
    (hplaced : (Stage.finished ⟨rendered, some error⟩).hasPlaced = false) :
    Judged settings forced ready base input (.finished ⟨rendered, some error⟩)
  | refused {rendered : Option Rendered} {target : Path} {fault : Fault}
    (h : CanPlace settings forced ready base input)
    (hnot : ¬ CanWrite settings forced ready base input) :
    Judged settings forced ready base input (.finished ⟨rendered, some (.unwritable target fault)⟩)
  | written {result : Rendered} (h : CanWrite settings forced ready base input)
    (hrendered : renderInput ready settings forced input = .ok result) :
    Judged settings forced ready base input (.finished ⟨some result, none⟩)

/-- The invariant of work that nothing disturbs. -/
structure Work.Undisturbed (settings : Settings) (forced : Option DocumentFormat)
    (directory : Path) (inputs : List Input) (ready : Sources) (base : Location) (work : Work) :
    Prop where
  faithful : work.Faithful settings forced directory inputs ready
  inputs : work.tasks.map (·.input) = inputs
  judged : ∀ task ∈ work.tasks, Judged settings forced ready base task.input task.stage
  overlay : ready.files.Overlay (work.Made base) (work.Wrote base) work.sources.files

/-- An input that has its place can be placed, as the files were prepared. -/
theorem Judged.canPlace {stage : Stage} (h : Judged settings forced ready base input stage)
    (hplaced : stage.hasPlaced = true) : CanPlace settings forced ready base input := by
  cases h with
  | waiting | rendered | compared => cases hplaced
  | placed h => exact h
  | stopped _ hnot =>
    rw [hnot] at hplaced
    cases hplaced
  | refused h => exact h
  | written h => exact h.toCanPlace

/-- What is about to be written is the rendering of the input as it was prepared. -/
theorem Judged.canWrite {stage : Stage} {html : String}
    (h : Judged settings forced ready base input stage) (houtput : stage.output? = some html) :
    CanWrite settings forced ready base input ∧
      ∃ result, renderInput ready settings forced input = .ok result ∧ html = result.html := by
  cases h with
  | waiting | rendered | compared | placed => cases houtput
  | stopped | refused => simp [Stage.output?] at houtput
  | @written result h hrendered =>
    cases houtput
    exact ⟨h, result, hrendered, rfl⟩

theorem Judged.exists_rendered {stage : Stage}
    (h : Judged settings forced ready base input stage) (hwritten : stage.isWritten = true) :
    ∃ result, stage = .finished ⟨some result, none⟩ ∧
      renderInput ready settings forced input = .ok result := by
  cases h with
  | waiting | rendered | compared | placed => cases hwritten
  | stopped | refused => simp [Stage.isWritten] at hwritten
  | @written result _ hrendered => exact ⟨result, rfl, hrendered⟩

/-- When the work is over, what can be placed is placed, and what can be written is written. -/
theorem Judged.finished_iff {written : Written}
    (h : Judged settings forced ready base input (.finished written)) :
    ((Stage.finished written).hasPlaced = true ↔ CanPlace settings forced ready base input) ∧
      ((Stage.finished written).isWritten = true ↔
        CanWrite settings forced ready base input) := by
  cases h with
  | stopped hnot hplaced =>
    have hnot' : ¬ CanWrite settings forced ready base input := fun hcan => hnot hcan.toCanPlace
    simp [hplaced, hnot, hnot', Stage.isWritten]
  | refused hcan hnot => simp [Stage.hasPlaced, Stage.isWritten, hcan, hnot]
  | written hcan => simp [Stage.hasPlaced, Stage.isWritten, hcan, hcan.toCanPlace]

namespace Work

variable {work : Work} {task : Task} {position : Nat}

/-- The tasks are those of the inputs, in their order. -/
theorem Undisturbed.mem (h : work.Undisturbed settings forced directory inputs ready base)
    (htask : work.tasks[position]? = some task) : inputs[position]? = some task.input := by
  rw [← h.inputs, List.getElem?_map, htask]
  rfl

theorem Undisturbed.judged_at (h : work.Undisturbed settings forced directory inputs ready base)
    (htask : work.tasks[position]? = some task) :
    Judged settings forced ready base task.input task.stage :=
  h.judged task (List.mem_of_getElem? htask)

/-! ### One step -/

private theorem hasPlaced_next {sources : Sources} {stage : Stage} (h : stage.hasPlaced = true) :
    (stage.next settings forced directory sources input).2.hasPlaced = true := by
  cases stage with
  | waiting | rendered | compared => cases h
  | placed result =>
    rw [Stage.next]
    split <;> rfl
  | finished written => exact h

private theorem output?_next {sources : Sources} {stage : Stage} {html : String}
    (h : stage.output? = some html) :
    (stage.next settings forced directory sources input).2.output? = some html := by
  cases stage with
  | waiting | rendered | compared | placed => cases h
  | finished written => exact h

/-- What some task has done after a step: what some task had done before, or what this task has
done, if a step does not undo it. -/
private theorem exists_advance_iff {done : Task → Prop} (htask : work.tasks[position]? = some task)
    (hkeeps : done task → done
      ⟨task.input, (task.stage.next settings forced directory work.sources task.input).2⟩) :
    (∃ (other : Nat) (otherTask : Task),
        (work.advance settings forced directory position).tasks[other]? = some otherTask ∧
          done otherTask) ↔
      (∃ (other : Nat) (otherTask : Task), work.tasks[other]? = some otherTask ∧ done otherTask) ∨
        done ⟨task.input,
          (task.stage.next settings forced directory work.sources task.input).2⟩ := by
  constructor
  · rintro ⟨other, otherTask, hother, hdone⟩
    rcases eq_or_ne position other with rfl | hne
    · rw [getElem?_advance_self htask] at hother
      cases hother
      exact .inr hdone
    · rw [getElem?_advance_of_ne hne] at hother
      exact .inl ⟨other, otherTask, hother, hdone⟩
  · rintro (⟨other, otherTask, hother, hdone⟩ | hdone)
    · rcases eq_or_ne position other with rfl | hne
      · rw [htask] at hother
        cases hother
        exact ⟨position, _, getElem?_advance_self htask, hkeeps hdone⟩
      · exact ⟨other, otherTask, by rw [getElem?_advance_of_ne hne, hother], hdone⟩
    · exact ⟨position, _, getElem?_advance_self htask, hdone⟩

/-- The directories made after a step are those made before it and those of its task. -/
private theorem made_advance (htask : work.tasks[position]? = some task) :
    (work.advance settings forced directory position).Made base = fun location =>
      work.Made base location ∨ Task.Made base
        ⟨task.input, (task.stage.next settings forced directory work.sources task.input).2⟩
        location :=
  funext fun _ => propext <| exists_advance_iff htask fun hmade =>
    ⟨hasPlaced_next hmade.1, hmade.2⟩

/-- What is written after a step is what was written before it and what its task has written. -/
private theorem wrote_advance (htask : work.tasks[position]? = some task) :
    (work.advance settings forced directory position).Wrote base = fun location content =>
      work.Wrote base location content ∨ Task.Wrote base
        ⟨task.input, (task.stage.next settings forced directory work.sources task.input).2⟩
        location content :=
  funext fun _ => funext fun _ => propext <| exists_advance_iff htask fun ⟨html, houtput, hplace⟩ =>
    ⟨html, output?_next houtput, hplace⟩

/-! ### Steps of each stage -/

/-- What a step of a task has to come to: its stage is judged rightly, and nothing but what it has
made and written has been added to the files. -/
def StepsRightly (settings : Settings) (forced : Option DocumentFormat) (ready : Sources)
    (base : Location) (work : Work) (input : Input) (outcome : FileSystem × Stage) : Prop :=
  Judged settings forced ready base input outcome.2 ∧
    ready.files.Overlay (fun location => work.Made base location ∨
        Task.Made base ⟨input, outcome.2⟩ location)
      (fun location content => work.Wrote base location content ∨
        Task.Wrote base ⟨input, outcome.2⟩ location content) outcome.1

/-- A step that makes and writes nothing. -/
private theorem Undisturbed.stepsRightly_of_same
    (h : work.Undisturbed settings forced directory inputs ready base) {stage : Stage}
    (hjudged : Judged settings forced ready base input stage)
    (hmade : ∀ location, Task.Made base ⟨input, stage⟩ location → work.Made base location)
    (hwrote : ∀ location content, Task.Wrote base ⟨input, stage⟩ location content →
      work.Wrote base location content) :
    StepsRightly settings forced ready base work input (work.sources.files, stage) := by
  have hmade' : (fun location => work.Made base location ∨
      Task.Made base ⟨input, stage⟩ location) = work.Made base :=
    funext fun location => propext <| or_iff_left_of_imp (hmade location)
  have hwrote' : (fun location content => work.Wrote base location content ∨
      Task.Wrote base ⟨input, stage⟩ location content) = work.Wrote base :=
    funext fun location => funext fun content => propext <| or_iff_left_of_imp
      (hwrote location content)
  refine ⟨hjudged, ?_⟩
  simp only [hmade', hwrote']
  exact h.overlay

/-- A step to a stage without a place and without an output is right. -/
private theorem Undisturbed.stepsRightly_of_idle
    (h : work.Undisturbed settings forced directory inputs ready base) {stage : Stage}
    (hjudged : Judged settings forced ready base input stage) (hplaced : stage.hasPlaced = false)
    (houtput : stage.output? = none) :
    StepsRightly settings forced ready base work input (work.sources.files, stage) := by
  refine h.stepsRightly_of_same hjudged (fun location hmade => ?_) fun location content hwrote => ?_
  · rw [hmade.1] at hplaced
    cases hplaced
  · obtain ⟨html, hhtml, -⟩ := hwrote
    rw [hhtml] at houtput
    cases houtput

/-- A task that has written nothing is none that has written something. -/
private theorem ne_of_output? {other : Nat} {otherTask : Task} {html : String}
    (htask : work.tasks[position]? = some task) (hnone : task.stage.output? = none)
    (hother : work.tasks[other]? = some otherTask)
    (houtput : otherTask.stage.output? = some html) : other ≠ position := by
  rintro rfl
  rw [htask] at hother
  cases hother
  rw [hnone] at houtput
  cases houtput

section Step

variable (hready : PreparedAt base directory inputs ready)
  (hnone : NoneHinders settings forced ready base inputs)
  (h : work.Undisturbed settings forced directory inputs ready base)

include hnone h in
/-- A file that blocks the way to an output is there from the start. -/
private theorem Undisturbed.not_blocked {result : Rendered}
    (htask : work.tasks[position]? = some ⟨input, .compared result⟩)
    (hcan : CanPlace settings forced ready base input) :
    ¬ work.sources.files.Blocked base input.outputName.pieces.dropLast := by
  rintro ⟨passed, content, hpassed, hfile⟩
  by_cases hmade : work.Made base (base ++ passed)
  · rw [h.overlay.directory hmade] at hfile
    cases hfile
  · by_cases hwrote : ∃ content', work.Wrote base (base ++ passed) content'
    · obtain ⟨content', other, task, hother, html, houtput, hplace, -⟩ := hwrote
      refine hnone (ne_of_output? htask rfl hother houtput) (h.mem hother) (h.mem htask)
        ⟨((h.judged_at hother).canWrite houtput).1, hcan, ?_⟩
      rw [← List.append_cancel_left hplace]
      exact hpassed.trans (List.dropLast_prefix _)
    · rw [h.overlay.other hmade (not_exists.mp hwrote)] at hfile
      exact hcan.free ⟨passed, content, hpassed, hfile⟩

include hnone h in
/-- No other task has written a file at the place of an output. -/
private theorem Undisturbed.not_wrote {result : Rendered}
    (htask : work.tasks[position]? = some ⟨input, .placed result⟩)
    (hcan : CanWrite settings forced ready base input) (content : ByteArray) :
    ¬ work.Wrote base (base ++ input.outputName.pieces) content := by
  rintro ⟨other, task, hother, html, houtput, hplace, -⟩
  exact hnone (ne_of_output? htask rfl hother houtput).symm (h.mem htask) (h.mem hother)
    ⟨hcan, ((h.judged_at hother).canWrite houtput).1.toCanPlace,
      List.append_cancel_left hplace ▸ List.prefix_rfl⟩

include hready hnone h

/-- A directory at the place of an output is there from the start. -/
private theorem Undisturbed.not_directory {result : Rendered}
    (htask : work.tasks[position]? = some ⟨input, .placed result⟩)
    (hcan : CanWrite settings forced ready base input) :
    work.sources.files.get? (base ++ input.outputName.pieces) ≠ some .directory := by
  intro hdirectory
  by_cases hmade : work.Made base (base ++ input.outputName.pieces)
  · obtain ⟨other, task, hother, hplaced, passed, hpassed, hplace⟩ := hmade
    have hstarts : input.outputName.pieces <+: task.input.outputName.pieces.dropLast :=
      List.append_cancel_left hplace ▸ hpassed
    have hne : position ≠ other := by
      rintro rfl
      rw [htask] at hother
      cases hother
      have hpos : 0 < input.outputName.pieces.length := List.length_pos_of_ne_nil
        (hready.prepared.descends (List.mem_of_getElem? (h.mem htask))).nonempty
      have hlength := hstarts.length_le
      rw [List.length_dropLast] at hlength
      exact absurd hlength (Nat.not_le.mpr (Nat.sub_one_lt_of_lt hpos))
    exact hnone hne (h.mem htask) (h.mem hother)
      ⟨hcan, (h.judged_at hother).canPlace hplaced, hstarts.trans (List.dropLast_prefix _)⟩
  · by_cases hwrote : ∃ content, work.Wrote base (base ++ input.outputName.pieces) content
    · obtain ⟨content, hcontent⟩ := hwrote
      rw [h.overlay.file hcontent] at hdirectory
      cases hdirectory
    · rw [h.overlay.other hmade (not_exists.mp hwrote)] at hdirectory
      exact hcan.notDirectory hdirectory

omit hnone in
private theorem Undisturbed.stepsRightly_waiting
    (htask : work.tasks[position]? = some ⟨input, .waiting⟩) :
    StepsRightly settings forced ready base work input
      (Stage.waiting.next settings forced directory work.sources input) := by
  have hinput : input ∈ inputs := List.mem_of_getElem? (h.mem htask)
  rw [Stage.next, h.faithful.renderInput_eq hready.prepared hinput]
  split
  · rename_i hrendered
    refine h.stepsRightly_of_idle (.stopped (fun hcan => ?_) rfl) rfl rfl
    obtain ⟨result, hresult⟩ := hcan.rendered
    rw [hrendered] at hresult
    cases hresult
  · exact h.stepsRightly_of_idle .rendered rfl rfl

omit hnone in
private theorem Undisturbed.stepsRightly_rendered {result : Rendered}
    (htask : work.tasks[position]? = some ⟨input, .rendered result⟩) :
    StepsRightly settings forced ready base work input
      ((Stage.rendered result).next settings forced directory work.sources input) := by
  have hinput : input ∈ inputs := List.mem_of_getElem? (h.mem htask)
  rw [Stage.next]
  split
  · rename_i path hoverwritten
    refine h.stepsRightly_of_idle (.stopped (fun hcan => hcan.other ?_) rfl) rfl rfl
    exact hready.standsAt_of_overwritten? hinput h.faithful.grows hoverwritten
  · exact h.stepsRightly_of_idle .compared rfl rfl

private theorem Undisturbed.stepsRightly_compared {result : Rendered}
    (htask : work.tasks[position]? = some ⟨input, .compared result⟩) :
    StepsRightly settings forced ready base work input
      ((Stage.compared result).next settings forced directory work.sources input) := by
  have hinput : input ∈ inputs := List.mem_of_getElem? (h.mem htask)
  obtain ⟨hrendered, hother⟩ := h.faithful.tasks _ (List.mem_of_getElem? htask)
  obtain ⟨names, last, hpieces, hnames, hlast⟩ := hready.straight hinput
  have hway : input.outputName.pieces.dropLast = names := by rw [hpieces, List.dropLast_concat]
  have hgoes := hready.goesOn hinput h.faithful.grows
  rw [hpieces] at hgoes
  obtain ⟨hfail, hmake⟩ := hgoes.makeDirectories_parent? hnames (isFiller_of_last hlast)
  by_cases hblocked : work.sources.files.Blocked base names
  · obtain ⟨fault, hfault⟩ := hfail hblocked
    rw [Stage.next, hfault]
    refine h.stepsRightly_of_idle (.stopped (fun hcan => ?_) rfl) rfl rfl
    exact h.not_blocked hnone htask hcan (hway ▸ hblocked)
  · obtain ⟨after, hafter, hmade⟩ := hmake hblocked
    rw [Stage.next, hafter]
    have hcan : CanPlace settings forced ready base input := by
      refine ⟨⟨result, hrendered⟩, fun hstands => ?_, fun hb => ?_⟩
      · exact hother _ (hready.resolve_targetOf hinput (.refl _)
          (hready.isSome_of_standsAt hinput hstands)) hstands
      · exact hblocked (hway ▸ h.faithful.grows.blocked hb)
    refine ⟨.placed hcan, ?_⟩
    have hoverlay := h.overlay.madeThrough hmade hblocked
    simpa [Task.Made, Task.Wrote, Stage.hasPlaced, Stage.output?, hway] using hoverlay

private theorem Undisturbed.stepsRightly_placed {result : Rendered}
    (htask : work.tasks[position]? = some ⟨input, .placed result⟩) :
    StepsRightly settings forced ready base work input
      ((Stage.placed result).next settings forced directory work.sources input) := by
  have hinput : input ∈ inputs := List.mem_of_getElem? (h.mem htask)
  obtain ⟨hrendered, -⟩ := h.faithful.tasks _ (List.mem_of_getElem? htask)
  have hcan : CanPlace settings forced ready base input := (h.judged_at htask).canPlace rfl
  obtain ⟨names, last, hpieces, hnames, hlast⟩ := hready.straight hinput
  have hway : input.outputName.pieces.dropLast = names := by rw [hpieces, List.dropLast_concat]
  have hmade : ∀ {location}, (∃ passed, passed <+: names ∧ location = base ++ passed) →
      work.Made base location := fun hpassed => ⟨position, _, htask, rfl, hway ▸ hpassed⟩
  have habove : work.sources.files.get? (base ++ names) = some .directory :=
    h.overlay.directory (hmade ⟨names, List.prefix_rfl, rfl⟩)
  have hgoes := hready.goesOn hinput h.faithful.grows
  rw [hpieces] at hgoes
  by_cases hfree : isEntryName last = true ∧
      work.sources.files.get? (base ++ (names ++ [last])) ≠ some .directory
  · have hentries : ∀ name ∈ names ++ [last], isEntryName name = true :=
      List.forall_mem_append.mpr ⟨hnames, by simpa using hfree.1⟩
    have hwrite : CanWrite settings forced ready base input := by
      refine ⟨hcan, by rwa [hpieces], fun hdirectory => hfree.2 ?_⟩
      rw [← hpieces]
      exact h.faithful.grows.directory hdirectory
    obtain ⟨hwritten, hadmits⟩ := hgoes.writeFile_eq_ok hentries habove hfree.2 result.html.toUTF8
    rw [Stage.next_placed settings forced hwritten]
    refine ⟨.written hwrite hrendered, ?_⟩
    have hunwritten := h.not_wrote hnone htask hwrite
    rw [hpieces] at hunwritten
    have hoverlay := h.overlay.put hadmits hunwritten
    have hmade' : (fun location => work.Made base location ∨
        Task.Made base ⟨input, .finished ⟨some result, none⟩⟩ location) = work.Made base :=
      funext fun location => propext <| or_iff_left_of_imp fun hplaced => hmade (hway ▸ hplaced.2)
    simpa only [hmade', Task.Wrote, Stage.output?, Option.some.injEq, exists_eq_left', hpieces]
      using hoverlay
  · have hdirectory : last = ".." ∨ isEntryName last = true ∧
        work.sources.files.get? (base ++ (names ++ [last])) = some .directory := by
      rw [not_and, not_not] at hfree
      exact hlast.symm.imp_right fun hentry => ⟨hentry, hfree hentry⟩
    rw [Stage.next, hgoes.writeFile_eq_error hnames hdirectory habove]
    refine h.stepsRightly_of_same (.refused hcan fun hwrite => hfree ⟨?_, ?_⟩)
      (fun location hplaced => hmade (hway ▸ hplaced.2)) fun location content hwrote => ?_
    · exact hwrite.named last (by simp [hpieces])
    · rw [← hpieces]
      exact h.not_directory hready hnone htask hwrite
    · obtain ⟨html, houtput, -⟩ := hwrote
      simp [Stage.output?] at houtput

/-- Each step of an undisturbed run is right, whatever stage its task is in. -/
theorem Undisturbed.stepsRightly (htask : work.tasks[position]? = some task) :
    StepsRightly settings forced ready base work task.input
      (task.stage.next settings forced directory work.sources task.input) := by
  obtain ⟨input, stage⟩ := task
  cases stage with
  | waiting => exact h.stepsRightly_waiting hready htask
  | rendered result => exact h.stepsRightly_rendered hready htask
  | compared result => exact h.stepsRightly_compared hready hnone htask
  | placed result => exact h.stepsRightly_placed hready hnone htask
  | finished written =>
    exact h.stepsRightly_of_same (h.judged_at htask) (fun _ hmade => ⟨_, _, htask, hmade⟩)
      fun _ _ hwrote => ⟨_, _, htask, hwrote⟩

/-- A step keeps the invariant when no input hinders another one, and no input is written over. -/
theorem Undisturbed.advance
    (hsafe : ∀ writer ∈ inputs, ∀ place content, IsInputFile ready.files inputs place content →
      ¬ Clobbers settings forced directory ready writer place content) (position : Nat) :
    (work.advance settings forced directory position).Undisturbed settings forced directory inputs
      ready base := by
  rcases htask : work.tasks[position]? with _ | task
  · rwa [advance_of_none htask]
  obtain ⟨hjudged, hoverlay⟩ := h.stepsRightly hready hnone htask
  refine ⟨h.faithful.advance hready.prepared hsafe position, ?_, fun other hother => ?_, ?_⟩
  · rw [map_input_advance, h.inputs]
  · rw [tasks_advance htask] at hother
    rcases List.mem_or_eq_of_mem_set hother with hother | rfl
    · exact h.judged other hother
    · exact hjudged
  · rw [made_advance htask, wrote_advance htask, files_advance htask]
    exact hoverlay

end Step

/-! ### Runs -/

/-- A run in which no input hinders another one stays undisturbed, by induction on its steps. -/
theorem Undisturbed.run (hready : PreparedAt base directory inputs ready)
    (hnone : NoneHinders settings forced ready base inputs)
    (hsafe : ∀ writer ∈ inputs, ∀ place content, IsInputFile ready.files inputs place content →
      ¬ Clobbers settings forced directory ready writer place content)
    (h : work.Undisturbed settings forced directory inputs ready base) (positions : List Nat) :
    (work.run settings forced directory positions).Undisturbed settings forced directory inputs
      ready base := by
  induction positions generalizing work with
  | nil => exact h
  | cons position positions ih => exact ih (h.advance hready hnone hsafe position)

/-- Nothing has been disturbed before the first step. -/
theorem undisturbed_start (settings : Settings) (forced : Option DocumentFormat)
    (directory : Path) (inputs : List Input) (ready : Sources) (base : Location) :
    (start ready inputs).Undisturbed settings forced directory inputs ready base := by
  have hwaiting : ∀ {position : Nat} {task : Task},
      (start ready inputs).tasks[position]? = some task → task.stage = .waiting := by
    intro position task htask
    obtain ⟨input, -, rfl⟩ := List.mem_map.mp (List.mem_of_getElem? htask)
    rfl
  refine ⟨faithful_start .., ?_, fun task htask => ?_, ?_⟩
  · simp [start, Function.comp_def]
  · obtain ⟨input, -, rfl⟩ := List.mem_map.mp htask
    exact .waiting
  · have hmade : (start ready inputs).Made base = fun _ => False := by
      funext location
      refine eq_false ?_
      rintro ⟨position, task, htask, hplaced, -⟩
      rw [hwaiting htask] at hplaced
      cases hplaced
    have hwrote : (start ready inputs).Wrote base = fun _ _ => False := by
      funext location content
      refine eq_false ?_
      rintro ⟨position, task, htask, html, houtput, -⟩
      rw [hwaiting htask] at houtput
      cases houtput
    rw [hmade, hwrote]
    exact FileSystem.overlay_self ready.files

end Work

end CommandLine

end IconMarkup
