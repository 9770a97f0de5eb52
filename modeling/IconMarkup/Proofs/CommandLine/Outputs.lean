import IconMarkup.Proofs.CommandLine.Undisturbed

/-!
# Outputs in each other's way

All outputs are written to one directory, and a target is compared with its own input only, so that
the output of one input can be lost to that of another one. `runRender_keeps_outputs_iff` says
exactly when: each output that a run counts is a file of its own in every order of the work, and the
files do not depend on the order, if and only if no two inputs compete. Two inputs compete when one
of them is written alone, and the name of its output is that of the other one's output or of a
directory on the way there (`Competes`).
-/

namespace IconMarkup

open Config Files CommandLine

namespace CommandLine

/-- The work on inputs at its end. -/
def Work.ending (settings : Settings) (forced : Option DocumentFormat) (directory : Path)
    (ready : Sources) (inputs : List Input) (schedule : Schedule) : Work :=
  (Work.start ready inputs).run settings forced directory (schedule.positions inputs.length)

/-- The inputs whose work has ended without an error. -/
def Work.written (work : Work) : List Input :=
  (work.tasks.filter (·.stage.isWritten)).map (·.input)

/-- The messages about the inputs that failed. -/
def Work.errors (work : Work) : List Notice :=
  work.results.filterMap fun (input, written) =>
    written.error.map fun error => failedNotice input error.message

/-- Whether two inputs compete for a place: the first one is written when it is rendered alone, the
directories on the way to the output of the second one are made when that is rendered alone, and the
output of the first one stands there or on the way there. -/
structure Competes (settings : Settings) (forced : Option DocumentFormat) (directory : Path)
    (ready : Sources) (first second : Input) : Prop where
  written : first ∈ (Work.ending settings forced directory ready [first] .inOrder).written
  placed : ∃ task ∈ (Work.ending settings forced directory ready [second] .inOrder).tasks,
    task.stage.hasPlaced = true
  starts : first.outputName.pieces <+: second.outputName.pieces

/-- Whether a run tells how many inputs have been written, and the output of each one is a file of
its own with the markup that the input is rendered to. -/
structure OutputsKept (settings : Settings) (arguments : RenderArguments) (sources : Sources)
    (directory : Path) (schedule : Schedule) (written : List Input) : Prop where
  told : .log .render ("wrote " ++ Text.counted written.length "file" ++ " to " ++
    directory.toString) ∈ (runRender arguments settings sources schedule).notices
  kept : ∀ input ∈ written, ∃ place result,
    (runRender arguments settings sources schedule).files.resolve (targetOf directory input) =
        .ok place ∧
      renderInput sources settings arguments.format input = .ok result ∧
      (runRender arguments settings sources schedule).files.get? place =
        some (.file result.html.toUTF8)
  apart : written.Pairwise fun first second =>
    (runRender arguments settings sources schedule).files.resolve (targetOf directory first) ≠
      (runRender arguments settings sources schedule).files.resolve (targetOf directory second)

variable {settings : Settings} {forced : Option DocumentFormat} {directory : Path}
  {inputs : List Input} {ready : Sources} {base : Location} {input : Input}

namespace Work

variable {work : Work} {task : Task} {position : Nat}

/-! ### Work that is over -/

private theorem IsOver.exists_finished (h : work.IsOver)
    (htask : work.tasks[position]? = some task) :
    ∃ written, task.stage = .finished written := by
  have hrank := h position
  rw [rankAt, htask] at hrank
  rcases hstage : task.stage with _ | result | result | result | written
  case finished => exact ⟨written, rfl⟩
  all_goals simp [hstage, Stage.rank, Stage.steps] at hrank

private theorem getElem?_run_of_finished {written : Written}
    (htask : work.tasks[position]? = some ⟨input, .finished written⟩) (positions : List Nat) :
    (work.run settings forced directory positions).tasks[position]? =
      some ⟨input, .finished written⟩ := by
  induction positions generalizing work with
  | nil => exact htask
  | cons other positions ih =>
    refine ih ?_
    rcases eq_or_ne other position with rfl | hne
    · rw [getElem?_advance_self htask]
      rfl
    · rw [getElem?_advance_of_ne hne, htask]

/-- Each input whose work is over is written or fails. -/
private theorem length_filter_isWritten {tasks : List Task}
    (h : ∀ task ∈ tasks, ∃ written, task.stage = .finished written) :
    (tasks.filter (·.stage.isWritten)).length +
      ((tasks.filterMap fun task => task.stage.written?.map (task.input, ·)).filterMap
        fun (input, written) => written.error.map fun error =>
          failedNotice input error.message).length = tasks.length := by
  induction tasks with
  | nil => rfl
  | cons task tasks ih =>
    obtain ⟨⟨written, hfinished⟩, hrest⟩ := List.forall_mem_cons.mp h
    have hlength := ih hrest
    rcases herror : written.error with _ | error <;>
      simp [hfinished, Stage.isWritten, Stage.written?, herror] at hlength ⊢ <;> omega

private theorem IsOver.length_written (h : work.IsOver) :
    work.written.length + work.errors.length = work.tasks.length := by
  have hfinished : ∀ task ∈ work.tasks, ∃ written, task.stage = .finished written := by
    intro task htask
    obtain ⟨position, hposition⟩ := List.getElem?_of_mem htask
    exact h.exists_finished hposition
  rw [written, List.length_map]
  exact length_filter_isWritten hfinished

private theorem mem_written_iff : input ∈ work.written ↔
    ∃ task ∈ work.tasks, task.stage.isWritten = true ∧ task.input = input := by
  simp [written, and_assoc]

private theorem pairwise_written_iff {R : Input → Input → Prop} :
    work.written.Pairwise R ↔ work.tasks.Pairwise fun first second =>
      first.stage.isWritten = true → second.stage.isWritten = true →
        R first.input second.input := by
  rw [written, List.pairwise_map, List.pairwise_filter]

/-! ### What nothing disturbs -/

private theorem isOver_ending (settings : Settings) (forced : Option DocumentFormat)
    (directory : Path) (ready : Sources) (inputs : List Input) (schedule : Schedule) :
    (ending settings forced directory ready inputs schedule).IsOver :=
  isOver_run_positions ready inputs schedule

theorem map_input_ending (settings : Settings) (forced : Option DocumentFormat) (directory : Path)
    (ready : Sources) (inputs : List Input) (schedule : Schedule) :
    (ending settings forced directory ready inputs schedule).tasks.map (·.input) = inputs := by
  rw [ending, map_input_run, start, List.map_map]
  exact List.map_id inputs

theorem length_written_ending (settings : Settings) (forced : Option DocumentFormat)
    (directory : Path) (ready : Sources) (inputs : List Input) (schedule : Schedule) :
    (ending settings forced directory ready inputs schedule).written.length +
      (ending settings forced directory ready inputs schedule).errors.length = inputs.length := by
  rw [(isOver_ending settings forced directory ready inputs schedule).length_written,
    ← List.length_map (·.input), map_input_ending]

section Over

variable (h : work.Undisturbed settings forced directory inputs ready base) (hover : work.IsOver)

include h hover

private theorem Undisturbed.finished_iff (htask : work.tasks[position]? = some task) :
    (task.stage.hasPlaced = true ↔ CanPlace settings forced ready base task.input) ∧
      (task.stage.isWritten = true ↔ CanWrite settings forced ready base task.input) := by
  obtain ⟨written, hfinished⟩ := hover.exists_finished htask
  have hjudged := h.judged_at htask
  rw [hfinished] at hjudged ⊢
  exact hjudged.finished_iff

omit hover in
private theorem Undisturbed.exists_task (hinput : input ∈ inputs) :
    ∃ (position : Nat) (task : Task), work.tasks[position]? = some task ∧ task.input = input := by
  rw [← h.inputs] at hinput
  obtain ⟨task, htask, rfl⟩ := List.mem_map.mp hinput
  obtain ⟨position, hposition⟩ := List.getElem?_of_mem htask
  exact ⟨position, task, hposition, rfl⟩

/-- What has been made in the end is decided at the start. -/
private theorem Undisturbed.made_eq : work.Made base = fun location =>
    ∃ input ∈ inputs, CanPlace settings forced ready base input ∧
      ∃ passed, passed <+: input.outputName.pieces.dropLast ∧ location = base ++ passed := by
  funext location
  refine propext ⟨?_, ?_⟩
  · rintro ⟨position, task, htask, hplaced, hplace⟩
    exact ⟨task.input, List.mem_of_getElem? (h.mem htask), (h.judged_at htask).canPlace hplaced,
      hplace⟩
  · rintro ⟨input, hinput, hcan, hplace⟩
    obtain ⟨position, task, htask, rfl⟩ := h.exists_task hinput
    exact ⟨position, task, htask, (h.finished_iff hover htask).1.mpr hcan, hplace⟩

/-- What has been written in the end is decided at the start. -/
private theorem Undisturbed.wrote_eq : work.Wrote base = fun location content =>
    ∃ input ∈ inputs, CanWrite settings forced ready base input ∧
      ∃ result, renderInput ready settings forced input = .ok result ∧
        location = base ++ input.outputName.pieces ∧ content = result.html.toUTF8 := by
  funext location content
  refine propext ⟨?_, ?_⟩
  · rintro ⟨position, task, htask, html, houtput, rfl, rfl⟩
    obtain ⟨hcan, result, hrendered, rfl⟩ := (h.judged_at htask).canWrite houtput
    exact ⟨task.input, List.mem_of_getElem? (h.mem htask), hcan, result, hrendered, rfl, rfl⟩
  · rintro ⟨input, hinput, hcan, result, hrendered, rfl, rfl⟩
    obtain ⟨position, task, htask, rfl⟩ := h.exists_task hinput
    obtain ⟨result', hstage, hrendered'⟩ :=
      (h.judged_at htask).exists_rendered ((h.finished_iff hover htask).2.mpr hcan)
    cases hrendered.symm.trans hrendered'
    exact ⟨position, task, htask, result.html, by rw [hstage]; rfl, rfl, rfl⟩

end Over

/-- Work that nothing disturbs ends with the same files in every order. -/
private theorem Undisturbed.get?_eq {first second : Work}
    (h : first.Undisturbed settings forced directory inputs ready base) (hover : first.IsOver)
    (h' : second.Undisturbed settings forced directory inputs ready base)
    (hover' : second.IsOver) : first.sources.files.get? = second.sources.files.get? := by
  have hoverlay := h.overlay
  have hoverlay' := h'.overlay
  rw [h.made_eq hover, h.wrote_eq hover] at hoverlay
  rw [h'.made_eq hover', h'.wrote_eq hover'] at hoverlay'
  exact hoverlay.get?_eq hoverlay'

/-- The output of each written input is where its target leads. -/
private theorem Undisturbed.get?_output (hready : PreparedAt base directory inputs ready)
    (h : work.Undisturbed settings forced directory inputs ready base)
    (htask : work.tasks[position]? = some task) (hwritten : task.stage.isWritten = true) :
    ∃ result, renderInput ready settings forced task.input = .ok result ∧
      work.sources.files.resolve (targetOf directory task.input) =
        .ok (base ++ task.input.outputName.pieces) ∧
      work.sources.files.get? (base ++ task.input.outputName.pieces) =
        some (.file result.html.toUTF8) := by
  obtain ⟨result, hstage, hrendered⟩ := (h.judged_at htask).exists_rendered hwritten
  have hfile : work.sources.files.get? (base ++ task.input.outputName.pieces) =
      some (.file result.html.toUTF8) :=
    h.overlay.file ⟨position, task, htask, result.html, by rw [hstage]; rfl, rfl, rfl⟩
  refine ⟨result, hrendered, ?_, hfile⟩
  exact hready.resolve_targetOf (List.mem_of_getElem? (h.mem htask)) h.faithful.grows
    (by rw [hfile]; rfl)

/-- The targets of different written inputs lead to different places. -/
private theorem Undisturbed.pairwise_written (hready : PreparedAt base directory inputs ready)
    (hnone : NoneHinders settings forced ready base inputs)
    (h : work.Undisturbed settings forced directory inputs ready base) (hover : work.IsOver) :
    work.written.Pairwise fun first second =>
      work.sources.files.resolve (targetOf directory first) ≠
        work.sources.files.resolve (targetOf directory second) := by
  rw [pairwise_written_iff, List.pairwise_iff_getElem]
  intro first second hfirst hsecond hlt hwritten hwritten' hsame
  have htask := List.getElem?_eq_getElem hfirst
  have htask' := List.getElem?_eq_getElem hsecond
  obtain ⟨-, -, hresolve, -⟩ := h.get?_output hready htask hwritten
  obtain ⟨-, -, hresolve', -⟩ := h.get?_output hready htask' hwritten'
  rw [hresolve, hresolve', Except.ok.injEq] at hsame
  have hcan := (h.finished_iff hover htask).2.mp hwritten
  have hcan' := (h.finished_iff hover htask').2.mp hwritten'
  exact hnone (Nat.ne_of_lt hlt) (h.mem htask) (h.mem htask')
    ⟨hcan, hcan'.toCanPlace, List.append_cancel_left hsame ▸ List.prefix_rfl⟩

/-! ### Work on one input alone -/

private theorem noneHinders_singleton (settings : Settings) (forced : Option DocumentFormat)
    (ready : Sources) (base : Location) (input : Input) :
    NoneHinders settings forced ready base [input] := by
  intro first second a b hne hfirst hsecond
  rw [List.getElem?_singleton] at hfirst hsecond
  split at hfirst <;> split at hsecond <;> simp_all

end Work

private theorem PreparedAt.singleton (h : PreparedAt base directory inputs ready)
    (hinput : input ∈ inputs) : PreparedAt base directory [input] ready := by
  have hmem : ∀ {other}, other ∈ [input] → other ∈ inputs := fun hother =>
    List.mem_singleton.mp hother ▸ hinput
  exact ⟨h.named, h.resolve, h.place, fun hother => h.straight (hmem hother), h.prepared.directory,
    fun hother => h.prepared.files (hmem hother), fun hother => h.prepared.descends (hmem hother)⟩

/-- One input alone is never written over. -/
private theorem not_clobbers_singleton {place : Location} {content : ByteArray}
    (h : IsInputFile ready.files [input] place content) :
    ¬ Clobbers settings forced directory ready input place content := by
  obtain ⟨⟨other, hother, hstands⟩, -⟩ := h
  rw [List.mem_singleton] at hother
  exact fun hclobbers => hclobbers.other (hother ▸ hstands)

namespace Work

/-- Work on inputs that do not hinder each other is not disturbed in any order. -/
theorem undisturbed_ending (hready : PreparedAt base directory inputs ready)
    (hnone : NoneHinders settings forced ready base inputs)
    (hsafe : ∀ writer ∈ inputs, ∀ place content, IsInputFile ready.files inputs place content →
      ¬ Clobbers settings forced directory ready writer place content) (schedule : Schedule) :
    (ending settings forced directory ready inputs schedule).Undisturbed settings forced directory
      inputs ready base :=
  (undisturbed_start settings forced directory inputs ready base).run hready hnone hsafe _

private theorem undisturbed_alone (settings : Settings) (forced : Option DocumentFormat)
    (hready : PreparedAt base directory inputs ready) (hinput : input ∈ inputs) :
    (ending settings forced directory ready [input] .inOrder).Undisturbed settings forced directory
      [input] ready base :=
  undisturbed_ending (hready.singleton hinput)
    (noneHinders_singleton settings forced ready base input)
    (fun _ hwriter _ _ hplace => List.mem_singleton.mp hwriter ▸ not_clobbers_singleton hplace)
    .inOrder

theorem alone_iff (settings : Settings) (forced : Option DocumentFormat)
    (hready : PreparedAt base directory inputs ready) (hinput : input ∈ inputs) :
    (input ∈ (ending settings forced directory ready [input] .inOrder).written ↔
        CanWrite settings forced ready base input) ∧
      ((∃ task ∈ (ending settings forced directory ready [input] .inOrder).tasks,
          task.stage.hasPlaced = true) ↔ CanPlace settings forced ready base input) := by
  have halone := undisturbed_alone settings forced hready hinput
  have hover := isOver_ending settings forced directory ready [input] .inOrder
  rw [mem_written_iff]
  generalize ending settings forced directory ready [input] .inOrder = work at halone hover ⊢
  obtain ⟨task, htasks, rfl⟩ := List.map_eq_singleton_iff.mp halone.inputs
  have htask : work.tasks[0]? = some task := by rw [htasks]; rfl
  have hiff := halone.finished_iff hover htask
  simp [htasks, hiff]

end Work

/-- Two inputs compete exactly when one hinders the other. -/
theorem competes_iff (hready : PreparedAt base directory inputs ready) {first second : Input}
    (hfirst : first ∈ inputs) (hsecond : second ∈ inputs) :
    Competes settings forced directory ready first second ↔
      Hinders settings forced ready base first second := by
  have hwritten := (Work.alone_iff settings forced hready hfirst).1
  have hplaced := (Work.alone_iff settings forced hready hsecond).2
  exact ⟨fun h => ⟨hwritten.mp h.written, hplaced.mp h.placed, h.starts⟩,
    fun h => ⟨hwritten.mpr h.written, hplaced.mpr h.placed, h.starts⟩⟩

/-! ### Orders that lose an output -/

namespace Work

variable {work : Work} {position : Nat}

/-- Three steps make the directories for an output that can be placed, if no file blocks the way by
now. -/
private theorem Faithful.exists_placed (hready : PreparedAt base directory inputs ready)
    (h : work.Faithful settings forced directory inputs ready)
    (htask : work.tasks[position]? = some ⟨input, .waiting⟩)
    (hcan : CanPlace settings forced ready base input)
    (hfree : ¬ work.sources.files.Blocked base input.outputName.pieces.dropLast) :
    ∃ result,
      (work.run settings forced directory [position, position, position]).tasks[position]? =
        some ⟨input, .placed result⟩ ∧
      work.sources.files.MadeThrough base input.outputName.pieces.dropLast
        (work.run settings forced directory [position, position, position]).sources.files := by
  have hinput : input ∈ inputs := h.inputs _ (List.mem_of_getElem? htask)
  obtain ⟨result, hrendered⟩ := hcan.rendered
  rw [← h.renderInput_eq hready.prepared hinput] at hrendered
  have hcompared : overwritten? work.sources.files (targetOf directory input) input = none :=
    Option.eq_none_iff_forall_not_mem.mpr fun path hpath =>
      hcan.other (hready.standsAt_of_overwritten? hinput h.grows hpath)
  obtain ⟨names, last, hpieces, hnames, hlast⟩ := hready.straight hinput
  have hgoes := hready.goesOn hinput h.grows
  rw [hpieces] at hgoes
  rw [hpieces, List.dropLast_concat] at hfree ⊢
  obtain ⟨after, hafter, hmade⟩ :=
    (hgoes.makeDirectories_parent? hnames (isFiller_of_last hlast)).2 hfree
  refine ⟨result, ?_⟩
  simp only [run_cons, run_nil]
  obtain ⟨hfiles, htask⟩ := advance_of_next htask (Stage.next_waiting directory hrendered)
  generalize work.advance settings forced directory position = rendered at hfiles htask ⊢
  rw [← hfiles] at hcompared hafter
  obtain ⟨hfiles, htask⟩ := advance_of_next htask (Stage.next_rendered settings forced hcompared)
  generalize rendered.advance settings forced directory position = compared at hfiles htask ⊢
  rw [← hfiles] at hafter
  obtain ⟨hfiles, htask⟩ := advance_of_next htask (Stage.next_compared settings forced hafter)
  exact ⟨htask, hfiles ▸ hmade⟩

/-- Four steps write an output that can be written, if by now no file blocks the way and no
directory stands in its place. -/
private theorem Faithful.exists_written (hready : PreparedAt base directory inputs ready)
    (h : work.Faithful settings forced directory inputs ready)
    (htask : work.tasks[position]? = some ⟨input, .waiting⟩)
    (hcan : CanWrite settings forced ready base input)
    (hfree : ¬ work.sources.files.Blocked base input.outputName.pieces.dropLast)
    (hnot : work.sources.files.get? (base ++ input.outputName.pieces) ≠ some .directory) :
    ∃ result,
      (work.run settings forced directory
        [position, position, position, position]).tasks[position]? =
          some ⟨input, .finished ⟨some result, none⟩⟩ ∧
      (work.run settings forced directory
        [position, position, position, position]).sources.files.get?
          (base ++ input.outputName.pieces) = some (.file result.html.toUTF8) := by
  have hinput : input ∈ inputs := h.inputs _ (List.mem_of_getElem? htask)
  obtain ⟨result, hplaced, hmade⟩ := h.exists_placed hready htask hcan.toCanPlace hfree
  have hgrows := h.grows.trans
    (@grows_run settings forced directory work [position, position, position])
  have hsplit : [position, position, position, position] =
      [position, position, position] ++ [position] := rfl
  rw [hsplit, run_append]
  generalize work.run settings forced directory [position, position, position] = placed
    at hplaced hmade hgrows ⊢
  obtain ⟨names, last, hpieces, -⟩ := hready.straight hinput
  have hgoes := hready.goesOn hinput hgrows
  have hentries := hcan.named
  rw [hpieces] at hgoes hentries hnot ⊢
  rw [hpieces, List.dropLast_concat] at hmade
  have hnot' : placed.sources.files.get? (base ++ (names ++ [last])) ≠ some .directory := by
    rwa [hmade.get?_concat]
  obtain ⟨hwrite, hadmits⟩ := hgoes.writeFile_eq_ok hentries (hmade.way List.prefix_rfl) hnot'
    result.html.toUTF8
  obtain ⟨hfiles, hfinished⟩ := advance_of_next hplaced (Stage.next_placed settings forced hwrite)
  refine ⟨result, hfinished, ?_⟩
  rw [run_cons, run_nil, hfiles]
  exact FileSystem.get?_put_self hadmits

private theorem getElem?_start (h : inputs[position]? = some input) :
    (start ready inputs).tasks[position]? = some ⟨input, .waiting⟩ := by
  rw [start, List.getElem?_map, h]
  rfl

/-- What the first steps of an order come to goes on to the end. -/
private theorem ending_eq (settings : Settings) (forced : Option DocumentFormat) (directory : Path)
    (ready : Sources) (inputs : List Input) (first : List Nat) :
    ∃ rest, ending settings forced directory ready inputs (fun _ => first) =
      ((start ready inputs).run settings forced directory first).run settings forced directory
        rest :=
  ⟨_, run_append _ _⟩

section Hindered

variable (hready : PreparedAt base directory inputs ready) {first second : Nat} {a b : Input}
  (hfirst : inputs[first]? = some a) (hsecond : inputs[second]? = some b)
  (hhinders : Hinders settings forced ready base a b)

include hready hfirst hsecond hhinders

/-- When two outputs have the same name, there is an order in which both are written. -/
private theorem exists_written_both (hne : first ≠ second)
    (hsafe : ∀ writer ∈ inputs, ∀ place content, IsInputFile ready.files inputs place content →
      ¬ Clobbers settings forced directory ready writer place content)
    (hsame : a.outputName.pieces = b.outputName.pieces) :
    ∃ schedule, ¬ (ending settings forced directory ready inputs schedule).written.Pairwise
      fun first second => targetOf directory first ≠ targetOf directory second := by
  have hstart := faithful_start settings forced directory inputs ready
  obtain ⟨result, hwritten, hfile⟩ := hstart.exists_written hready (getElem?_start hfirst)
    hhinders.written hhinders.written.free hhinders.written.notDirectory
  have hfaithful := hstart.run hready.prepared hsafe [first, first, first, first]
  have hwaiting : ((start ready inputs).run settings forced directory
      [first, first, first, first]).tasks[second]? = some ⟨b, .waiting⟩ := by
    rw [getElem?_run_of_notMem (by simp [Ne.symm hne]), getElem?_start hsecond]
  have hcan : CanWrite settings forced ready base b :=
    ⟨hhinders.placed, hsame ▸ hhinders.written.named, hsame ▸ hhinders.written.notDirectory⟩
  -- the file that the first one has written is no obstacle for the second one
  have habove : ((start ready inputs).run settings forced directory
      [first, first, first, first]).sources.files.get? (base ++ b.outputName.pieces.dropLast) =
        some .directory := by
    obtain ⟨names, last, hpieces, -⟩ := hready.straight (List.mem_of_getElem? hsecond)
    rw [hsame, hpieces, ← List.append_assoc] at hfile
    rw [hpieces, List.dropLast_concat]
    exact (FileSystem.get?_above hfile).1
  rw [hsame] at hfile
  obtain ⟨result', hwritten', -⟩ := hfaithful.exists_written hready hwaiting hcan
    (FileSystem.not_blocked_of_directory habove) (by simp [hfile])
  have hwritten : (((start ready inputs).run settings forced directory
      [first, first, first, first]).run settings forced directory
        [second, second, second, second]).tasks[first]? =
          some ⟨a, .finished ⟨some result, none⟩⟩ := getElem?_run_of_finished hwritten _
  rw [← run_append] at hwritten hwritten'
  obtain ⟨rest, hending⟩ := ending_eq settings forced directory ready inputs
    ([first, first, first, first] ++ [second, second, second, second])
  refine ⟨fun _ => [first, first, first, first] ++ [second, second, second, second],
    fun hpairwise => ?_⟩
  rw [hending, pairwise_written_iff, List.pairwise_iff_getElem] at hpairwise
  have hname : a.outputName = b.outputName := congrArg Files.Path.mk hsame
  have htarget : targetOf directory a = targetOf directory b := by
    rw [targetOf, targetOf, hname]
  obtain ⟨hlt, htask⟩ := List.getElem?_eq_some_iff.mp (getElem?_run_of_finished hwritten rest)
  obtain ⟨hlt', htask'⟩ := List.getElem?_eq_some_iff.mp (getElem?_run_of_finished hwritten' rest)
  rcases Nat.lt_or_gt_of_ne hne with hbefore | hafter
  · refine hpairwise first second hlt hlt' hbefore (by rw [htask]; rfl) (by rw [htask']; rfl) ?_
    rw [htask, htask', htarget]
  · refine hpairwise second first hlt' hlt hafter (by rw [htask']; rfl) (by rw [htask]; rfl) ?_
    rw [htask, htask', htarget]

/-- When one output has the name of a directory on the way to the other one, the order decides what
stands there. -/
private theorem exists_get?_ne (hdiffer : a.outputName.pieces ≠ b.outputName.pieces) :
    ∃ schedule schedule',
      (ending settings forced directory ready inputs schedule).sources.files.get? ≠
        (ending settings forced directory ready inputs schedule').sources.files.get? := by
  have hstart := faithful_start settings forced directory inputs ready
  obtain ⟨result, -, hfile⟩ := hstart.exists_written hready (getElem?_start hfirst)
    hhinders.written hhinders.written.free hhinders.written.notDirectory
  obtain ⟨result', -, hmade⟩ := hstart.exists_placed hready (getElem?_start hsecond)
    hhinders.placed hhinders.placed.free
  obtain ⟨rest, hending⟩ := ending_eq settings forced directory ready inputs
    [first, first, first, first]
  obtain ⟨rest', hending'⟩ := ending_eq settings forced directory ready inputs
    [second, second, second]
  refine ⟨fun _ => [first, first, first, first], fun _ => [second, second, second],
    fun hsame => ?_⟩
  rw [hending, hending'] at hsame
  -- a file stands there if the first one is written first, and else a directory
  have hway : a.outputName.pieces <+: b.outputName.pieces.dropLast := by
    obtain ⟨more, hmore⟩ := hhinders.starts
    have hmore' : more ≠ [] := by
      rintro rfl
      exact hdiffer (by rw [← hmore, List.append_nil])
    exact ⟨more.dropLast, by rw [← hmore, List.dropLast_append_of_ne_nil hmore']⟩
  obtain ⟨content, hcontent⟩ := (grows_run _ rest).file hfile
  have hdirectory := (@grows_run settings forced directory _ rest').directory (hmade.way hway)
  rw [← hsame, hcontent] at hdirectory
  cases hdirectory

end Hindered

end Work

/-! ### Outputs of a run -/

/-- Rendering an input that is there is not changed by new directories. -/
private theorem renderInput_of_extends {sources : Sources} {files : FileSystem}
    (hextends : sources.files.Extends files)
    (hfile : ∀ {path root}, input = .file path root → sources.files.isFile path = true) :
    renderInput { sources with files } settings forced input =
      renderInput sources settings forced input := by
  have hread : input.read { sources with files } = input.read sources := by
    cases input with
    | stdin => rfl
    | file path root =>
      obtain ⟨place, content, hresolve, hcontent⟩ := FileSystem.isFile_eq_true_iff.mp (hfile rfl)
      simp only [Input.read, FileSystem.readText, hresolve, hextends.grows.resolve hresolve,
        hcontent, hextends.entry hcontent, bind, Except.bind]
  rw [renderInput, renderInput, hread]

/-- The place of the output directory of a run. -/
private theorem exists_preparedAt {sources : Sources} {paths : List Path} {files : FileSystem}
    (hnamed : directory.isEmpty = false)
    (hinputs : collectInputs sources.files forced paths = .ok inputs)
    (hmade : sources.files.makeDirectories directory = (files, none)) :
    ∃ base, PreparedAt base directory inputs { sources with files } := by
  have hprepared := prepared_of_collectInputs hinputs hmade
  obtain ⟨base, hresolve, hplace⟩ := FileSystem.isDirectory_eq_true_iff.mp
    (hprepared.directory.resolve_left (by simp [hnamed]))
  exact ⟨base, hnamed, hresolve, hplace, fun hinput =>
    (collected_of_mem hinputs _ hinput).straight_outputName, hprepared⟩

/-- When the output directory can be made, the work is done, and what has become of it is told. -/
theorem notices_renderToDirectory {sources : Sources} {files : FileSystem}
    (hmade : sources.files.makeDirectories directory = (files, none)) (settings : Settings)
    (forced : Option DocumentFormat) (schedule : Schedule) (inputs : List Input) :
    let work := Work.ending settings forced directory { sources with files } inputs schedule
    (renderToDirectory sources settings forced schedule directory inputs).notices =
      work.notices ++ [.progress (progressAfter forced inputs work.counted)] ++ work.errors ++
        [.log .render ("wrote " ++ Text.counted work.written.length "file" ++ " to " ++
          directory.toString)] := by
  intro work
  have hlength : work.written.length + work.errors.length = inputs.length :=
    Work.length_written_ending ..
  rw [renderToDirectory, hmade, Nat.eq_sub_of_add_eq hlength]
  rfl

section Run

variable {arguments : RenderArguments} {sources : Sources} {schedule : Schedule}
  {files : FileSystem} (houtput : arguments.output = some directory)
  (hinputs : collectInputs sources.files arguments.format arguments.paths = .ok inputs)
  (hmade : sources.files.makeDirectories directory = (files, none))

include houtput hinputs hmade

private theorem files_runRender_ending :
    (runRender arguments settings sources schedule).files =
      (Work.ending settings arguments.format directory { sources with files } inputs
        schedule).sources.files := by
  rw [files_runRender houtput hinputs, files_renderToDirectory hmade, Work.ending]

/-- The number of outputs that a run tells is the number of inputs whose work has ended without an
error. -/
private theorem wrote_mem_notices_runRender :
    .log .render ("wrote " ++ Text.counted (Work.ending settings arguments.format directory
        { sources with files } inputs schedule).written.length "file" ++ " to " ++
      directory.toString) ∈ (runRender arguments settings sources schedule).notices := by
  rw [runRender, hinputs]
  simp only [houtput, Outcome.after]
  rw [notices_renderToDirectory hmade]
  exact List.mem_append_right _ (List.mem_append_right _ (List.mem_singleton_self _))

end Run

theorem noneHinders_iff (hready : PreparedAt base directory inputs ready) :
    NoneHinders settings forced ready base inputs ↔ inputs.Pairwise fun first second =>
      ¬ Competes settings forced directory ready first second ∧
        ¬ Competes settings forced directory ready second first := by
  rw [List.pairwise_iff_getElem]
  constructor
  · intro hnone first second hfirst hsecond hlt
    have hmem := List.getElem_mem hfirst
    have hmem' := List.getElem_mem hsecond
    rw [competes_iff hready hmem hmem', competes_iff hready hmem' hmem]
    exact ⟨hnone (Nat.ne_of_lt hlt) (List.getElem?_eq_getElem hfirst)
      (List.getElem?_eq_getElem hsecond), hnone (Nat.ne_of_gt hlt)
        (List.getElem?_eq_getElem hsecond) (List.getElem?_eq_getElem hfirst)⟩
  · intro hnone first second a b hne hfirst hsecond
    obtain ⟨hlt, rfl⟩ := List.getElem?_eq_some_iff.mp hfirst
    obtain ⟨hlt', rfl⟩ := List.getElem?_eq_some_iff.mp hsecond
    rw [← competes_iff hready (List.getElem_mem hlt) (List.getElem_mem hlt')]
    rcases Nat.lt_or_gt_of_ne hne with hbefore | hafter
    · exact (hnone first second hlt hlt' hbefore).1
    · exact (hnone second first hlt' hlt hafter).2

/-- When no input hinders another one, the outputs are kept in every order. -/
private theorem outputsKept_of_noneHinders {arguments : RenderArguments} {sources : Sources}
    {files : FileSystem} (houtput : arguments.output = some directory)
    (hinputs : collectInputs sources.files arguments.format arguments.paths = .ok inputs)
    (hmade : sources.files.makeDirectories directory = (files, none))
    (hready : PreparedAt base directory inputs { sources with files })
    (hnone : NoneHinders settings arguments.format { sources with files } base inputs)
    (hsafe : ∀ writer ∈ inputs, ∀ place content, IsInputFile files inputs place content →
      ¬ Clobbers settings arguments.format directory { sources with files } writer place content)
    (schedule : Schedule) :
    OutputsKept settings arguments sources directory schedule
      (Work.ending settings arguments.format directory { sources with files } inputs
        schedule).written := by
  have hundisturbed := Work.undisturbed_ending hready hnone hsafe schedule
  have hover := Work.isOver_ending settings arguments.format directory { sources with files }
    inputs schedule
  have hextends := FileSystem.extends_makeDirectories sources.files directory
  rw [hmade] at hextends
  refine ⟨wrote_mem_notices_runRender houtput hinputs hmade, fun input hinput => ?_, ?_⟩
  · obtain ⟨task, htask, hwritten, rfl⟩ := Work.mem_written_iff.mp hinput
    obtain ⟨position, hposition⟩ := List.getElem?_of_mem htask
    obtain ⟨result, hrendered, hresolve, hfile⟩ :=
      hundisturbed.get?_output hready hposition hwritten
    have hinput : task.input ∈ inputs := List.mem_of_getElem? (hundisturbed.mem hposition)
    rw [renderInput_of_extends hextends fun heq =>
      (collected_of_mem hinputs _ (heq ▸ hinput)).isFile] at hrendered
    rw [files_runRender_ending houtput hinputs hmade]
    exact ⟨_, result, hresolve, hrendered, hfile⟩
  · rw [files_runRender_ending houtput hinputs hmade]
    exact hundisturbed.pairwise_written hready hnone hover

/-- When the outputs are kept in every order, and the files do not depend on it, no input hinders
another one. -/
private theorem noneHinders_of_kept (hready : PreparedAt base directory inputs ready)
    (hsafe : ∀ writer ∈ inputs, ∀ place content, IsInputFile ready.files inputs place content →
      ¬ Clobbers settings forced directory ready writer place content)
    (hkept : ∀ schedule,
      (Work.ending settings forced directory ready inputs schedule).written.Pairwise
        fun first second => targetOf directory first ≠ targetOf directory second)
    (hsame : ∀ first second,
      (Work.ending settings forced directory ready inputs first).sources.files.get? =
        (Work.ending settings forced directory ready inputs second).sources.files.get?) :
    NoneHinders settings forced ready base inputs := by
  intro first second a b hne hfirst hsecond hhinders
  by_cases hnames : a.outputName.pieces = b.outputName.pieces
  · -- both outputs are written, to one place
    obtain ⟨schedule, hnot⟩ :=
      Work.exists_written_both hready hfirst hsecond hhinders hne hsafe hnames
    exact hnot (hkept schedule)
  · obtain ⟨schedule, schedule', hnot⟩ :=
      Work.exists_get?_ne hready hfirst hsecond hhinders hnames
    exact hnot (hsame schedule schedule')

/-- Once the output directory has been made, each output that is counted is a file of its own with
the markup of its input in every order of the work, and the files do not depend on the order, if and
only if no two inputs compete. -/
theorem runRender_keeps_outputs_iff {arguments : RenderArguments} (settings : Settings)
    {sources : Sources} {directory : Path} {inputs : List Input} {files : FileSystem}
    (houtput : arguments.output = some directory) (hnamed : directory.isEmpty = false)
    (hinputs : collectInputs sources.files arguments.format arguments.paths = .ok inputs)
    (hmade : sources.files.makeDirectories directory = (files, none))
    (hsafe : ∀ writer ∈ inputs, ∀ place content, IsInputFile sources.files inputs place content →
      ¬ Clobbers settings arguments.format directory { sources with files } writer place content) :
    ((∀ schedule, OutputsKept settings arguments sources directory schedule
        (Work.ending settings arguments.format directory { sources with files } inputs
          schedule).written) ∧
      ∀ first second, (runRender arguments settings sources first).files.get? =
        (runRender arguments settings sources second).files.get?) ↔
    inputs.Pairwise fun first second =>
      ¬ Competes settings arguments.format directory { sources with files } first second ∧
        ¬ Competes settings arguments.format directory { sources with files } second first := by
  obtain ⟨base, hready⟩ := exists_preparedAt hnamed hinputs hmade
  have hextends := FileSystem.extends_makeDirectories sources.files directory
  rw [hmade] at hextends
  have hsame : ∀ {place content}, IsInputFile files inputs place content ↔
      IsInputFile sources.files inputs place content :=
    isInputFile_iff_of_extends hextends fun hinput => (collected_of_mem hinputs _ hinput).isFile
  have hsafe' := fun writer hwriter place content hplace =>
    hsafe writer hwriter place content (hsame.mp hplace)
  rw [← noneHinders_iff hready]
  simp only [files_runRender_ending houtput hinputs hmade]
  constructor
  · rintro ⟨hkept, hfiles⟩
    refine noneHinders_of_kept hready hsafe' (fun schedule => ?_) hfiles
    exact (hkept schedule).apart.imp fun hplaces htargets => hplaces (by rw [htargets])
  · intro hnone
    refine ⟨outputsKept_of_noneHinders houtput hinputs hmade hready hnone hsafe',
      fun first second => ?_⟩
    have hover := Work.isOver_ending settings arguments.format directory { sources with files }
      inputs
    exact (Work.undisturbed_ending hready hnone hsafe' first).get?_eq (hover first)
      (Work.undisturbed_ending hready hnone hsafe' second) (hover second)

/-- Rendering a page and a draft of it to one directory leaves one file there, though two are
counted. -/
theorem not_runRender_keeps_draft :
    collectInputs pageWithDraft.files none [draftPath, pagePath] =
        .ok [.file draftPath none, .file pagePath none] ∧
      .log .render "wrote 2 files to out" ∈
        (runRender ⟨[draftPath, pagePath], some ⟨["out"]⟩, {}, none⟩ {} pageWithDraft
          .inOrder).notices ∧
      (runRender ⟨[draftPath, pagePath], some ⟨["out"]⟩, {}, none⟩ {} pageWithDraft
        .inOrder).files.walk ⟨["out"]⟩ = [⟨["out", "page.html"]⟩] ∧
      ¬ ((∀ schedule, OutputsKept {} ⟨[draftPath, pagePath], some ⟨["out"]⟩, {}, none⟩
          pageWithDraft ⟨["out"]⟩ schedule (Work.ending {} none ⟨["out"]⟩
            { pageWithDraft with files := (pageWithDraft.files.makeDirectories ⟨["out"]⟩).1 }
            [.file draftPath none, .file pagePath none] schedule).written) ∧
        ∀ first second,
          (runRender ⟨[draftPath, pagePath], some ⟨["out"]⟩, {}, none⟩ {} pageWithDraft
              first).files.get? =
            (runRender ⟨[draftPath, pagePath], some ⟨["out"]⟩, {}, none⟩ {} pageWithDraft
              second).files.get?) := by
  have hinputs : collectInputs pageWithDraft.files none [draftPath, pagePath] =
      .ok [.file draftPath none, .file pagePath none] := by
    decide +kernel
  have hmade : pageWithDraft.files.makeDirectories ⟨["out"]⟩ =
      ((pageWithDraft.files.makeDirectories ⟨["out"]⟩).1, none) :=
    Prod.ext rfl (by decide +kernel)
  refine ⟨hinputs, by decide +kernel, by decide +kernel, fun hkept => ?_⟩
  have hfree : ∀ writer ∈ [Input.file draftPath none, .file pagePath none],
      (pageWithDraft.files.makeDirectories ⟨["out"]⟩).1.resolve (targetOf ⟨["out"]⟩ writer) =
        .error .missing := by
    decide +kernel
  have hapart := (runRender_keeps_outputs_iff {} rfl rfl hinputs hmade
    fun writer hwriter place content _ hclobbers => by
      have hresolve := hclobbers.target
      rw [hfree writer hwriter] at hresolve
      cases hresolve).mp hkept
  refine (List.pairwise_pair.mp hapart).1 ⟨?_, ?_, ?_⟩ <;> decide +kernel

end CommandLine

end IconMarkup
