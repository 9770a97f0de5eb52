import Mathlib.Algebra.BigOperators.Group.List.Basic
import IconMarkup.Proofs.CommandLine.Failures
import IconMarkup.Proofs.CommandLine.Outputs

/-!
# Counting what is written

While inputs are rendered to a directory, each one whose output has been written is counted in the
counter of its format. The counters are made before the work begins, for the formats that have
inputs, and each step of the work keeps in line what has been counted and what has been written
(`Work.Counts.advance`). So in every order of the work each counter ends up with the number of the
outputs of its format, and the counters, the number in the last message and the messages about
inputs that failed agree (`counts_renderToDirectory`).
-/

namespace IconMarkup.CommandLine

open Config Files

variable {settings : Settings} {forced : Option DocumentFormat} {directory : Path}
  {inputs written : List Input} {work : Work} {task : Task} {position : Nat}
  {format : DocumentFormat} {counters : List Progress}

/-! ### Counters -/

/-- How many inputs have a format. -/
def countOf (forced : Option DocumentFormat) (inputs : List Input) (format : DocumentFormat) :
    Nat :=
  inputs.countP fun input => input.format forced = format

/-- The counter of a format for inputs of which some have been written. -/
def counterOf (forced : Option DocumentFormat) (inputs written : List Input)
    (format : DocumentFormat) : Progress :=
  ⟨format, countOf forced written format, countOf forced inputs format⟩

/-- The counters of the formats that have inputs. -/
def countersOf (forced : Option DocumentFormat) (inputs written : List Input) : List Progress :=
  ([.html, .markdown].map (counterOf forced inputs written)).filter fun counter =>
    counter.total ≠ 0

private theorem DocumentFormat.name_inj {a b : DocumentFormat} : a.name = b.name ↔ a = b := by
  cases a <;> cases b <;> decide

/-- Each input has one of the two formats. -/
private theorem countOf_html_add_countOf_markdown (forced : Option DocumentFormat)
    (inputs : List Input) :
    countOf forced inputs .html + countOf forced inputs .markdown = inputs.length := by
  rw [List.length_eq_countP_add_countP fun input => input.format forced = .html]
  congr 1
  refine List.countP_congr fun input _ => ?_
  cases input.format forced <;> simp

/-- Before any input is done, there are the counters of the formats that have inputs. -/
private theorem progressBefore_eq (forced : Option DocumentFormat) (inputs : List Input) :
    progressBefore forced inputs = countersOf forced inputs [] := by
  have hmarkdown : inputs.length - countOf forced inputs .html =
      countOf forced inputs .markdown := by
    have htotal := countOf_html_add_countOf_markdown forced inputs
    omega
  change Progress.counters [(.html, countOf forced inputs .html),
    (.markdown, inputs.length - countOf forced inputs .html)] = _
  rw [hmarkdown]
  change Progress.counters ([.html, .markdown].map fun format =>
    (format, countOf forced inputs format)) = _
  rw [Progress.counters, countersOf, List.filter_map, List.filter_map, List.map_map]
  simp only [Function.comp_def, Nat.pos_iff_ne_zero]
  rfl

/-- A format is counted in its own counter, if the counters are those of different formats. -/
private theorem increment_eq_map (h : (counters.map (·.format)).Nodup) (format : DocumentFormat) :
    Progress.increment format.name counters = counters.map fun counter =>
      { counter with done := counter.done + if counter.format = format then 1 else 0 } := by
  induction counters with
  | nil => rfl
  | cons counter rest ih =>
    rw [List.map_cons, List.nodup_cons] at h
    rw [Progress.increment, List.map_cons]
    by_cases hformat : counter.format = format
    · -- no other counter is the one of the format
      have hrest : ∀ other ∈ rest, other.format ≠ format := fun other hother hsame =>
        h.1 (hformat.trans hsame.symm ▸ List.mem_map_of_mem hother)
      have hkept : rest.map (fun other =>
          { other with done := other.done + if other.format = format then 1 else 0 }) = rest := by
        conv_rhs => rw [← List.map_id rest]
        exact List.map_congr_left fun other hother => by rw [if_neg (hrest other hother)]; rfl
      rw [if_pos (DocumentFormat.name_inj.mpr hformat), if_pos hformat, hkept]
    · rw [if_neg (mt DocumentFormat.name_inj.mp hformat), if_neg hformat, ih h.2]
      rfl

/-- Each counter goes up as often as its format is counted. -/
theorem foldl_increment (h : (counters.map (·.format)).Nodup) (counted : List DocumentFormat) :
    counted.foldl (fun counters format => Progress.increment format.name counters) counters =
      counters.map fun counter =>
        { counter with done := counter.done + counted.count counter.format } := by
  induction counted generalizing counters with
  | nil => simp
  | cons format counted ih =>
    rw [List.foldl_cons, increment_eq_map h, ih (by simpa [Function.comp_def] using h),
      List.map_map]
    refine List.map_congr_left fun counter _ => ?_
    rw [Function.comp_apply, List.count_cons, Progress.mk.injEq]
    refine ⟨rfl, ?_, rfl⟩
    simp only [beq_iff_eq, eq_comm (a := format)]
    omega

/-! ### What a step counts -/

/-- Whether what an input has been rendered to has a format, unless the work is over. -/
def Stage.HasFormat (format : DocumentFormat) : Stage → Prop
  | .rendered result | .compared result | .placed result => result.format = format
  | .waiting | .finished _ => True

private theorem format_of_renderInput {sources : Sources} {input : Input} {result : Rendered}
    (h : renderInput sources settings forced input = .ok result) :
    result.format = input.format forced := by
  rw [renderInput_eq] at h
  rcases hread : input.read sources with error | text <;> rw [hread] at h <;> cases h
  rfl

private theorem Stage.hasFormat_next (sources : Sources) {input : Input} {stage : Stage}
    (h : stage.HasFormat (input.format forced)) :
    (stage.next settings forced directory sources input).2.HasFormat (input.format forced) := by
  cases stage with
  | waiting =>
    rw [Stage.next]
    split
    · trivial
    · rename_i hrendered
      exact format_of_renderInput hrendered
  | rendered result | compared result =>
    rw [Stage.next]
    split
    · trivial
    · exact h
  | placed result =>
    rw [Stage.next]
    split <;> trivial
  | finished written => trivial

/-- What a step writes is counted with the format of its input, and nothing else is. -/
private theorem Stage.count_counted_next (sources : Sources) {input : Input} {stage : Stage}
    (h : stage.HasFormat (input.format forced)) (format : DocumentFormat) :
    (((stage.next settings forced directory sources input).2.counted stage).count format) +
        (if stage.isWritten ∧ input.format forced = format then 1 else 0) =
      if (stage.next settings forced directory sources input).2.isWritten ∧
        input.format forced = format then 1 else 0 := by
  cases stage with
  | waiting | rendered result | compared result =>
    rw [Stage.next]
    split <;> simp [Stage.counted, Stage.isWritten]
  | placed result =>
    have hformat : result.format = input.format forced := h
    rw [Stage.next]
    split <;> simp [Stage.counted, Stage.isWritten, List.count_singleton, hformat]
  | finished written => exact Nat.zero_add _

/-- Whether a step writes the output of an input: the directory of the target is there, and the
markup is put into the file at the target. -/
def Stage.WritesNow (directory : Path) (sources : Sources) (input : Input) : Stage → Prop
  | .placed result => ∃ files,
    sources.files.writeFile (targetOf directory input) result.html.toUTF8 = .ok files
  | _ => False

/-- The work ends without an error in the step that writes. -/
private theorem Stage.isWritten_next_iff {sources : Sources} {input : Input} {stage : Stage} :
    (stage.next settings forced directory sources input).2.isWritten = true ↔
      stage.isWritten = true ∨ stage.WritesNow directory sources input := by
  cases stage with
  | waiting | rendered result | compared result =>
    rw [Stage.next]
    split <;> simp [Stage.isWritten, Stage.WritesNow]
  | placed result =>
    rw [Stage.next, Stage.WritesNow]
    split <;> rename_i hwrite <;> rw [hwrite] <;> simp [Stage.isWritten]
  | finished written => exact (or_iff_left id).symm

namespace Work

/-- Whether what has been counted is what has been written, format by format. -/
structure Counts (forced : Option DocumentFormat) (work : Work) : Prop where
  formats : ∀ task ∈ work.tasks, task.stage.HasFormat (task.input.format forced)
  counted : ∀ format, work.counted.count format =
    work.tasks.countP fun task => task.stage.isWritten ∧ task.input.format forced = format

private theorem counts_start (forced : Option DocumentFormat) (sources : Sources)
    (inputs : List Input) :
    (start sources inputs).Counts forced := by
  refine ⟨fun task htask => ?_, fun format => ?_⟩
  · obtain ⟨input, -, rfl⟩ := List.mem_map.mp htask
    trivial
  · rw [start, List.countP_map]
    exact (List.countP_eq_zero.mpr (by simp [Stage.isWritten])).symm

/-- A step counts what it writes. -/
theorem Counts.advance (h : work.Counts forced) (position : Nat) :
    (work.advance settings forced directory position).Counts forced := by
  rcases htask : work.tasks[position]? with _ | task
  · rwa [advance_of_none htask]
  obtain ⟨hlt, hget⟩ := List.getElem?_eq_some_iff.mp htask
  have hformat := h.formats task (List.mem_of_getElem? htask)
  refine ⟨fun other hother => ?_, fun format => ?_⟩
  · rw [tasks_advance htask] at hother
    rcases List.mem_or_eq_of_mem_set hother with hold | rfl
    · exact h.formats other hold
    · exact Stage.hasFormat_next work.sources hformat
  · have hstep :=
      @Stage.count_counted_next settings forced directory work.sources _ _ hformat format
    have hcounted : (work.advance settings forced directory position).counted = work.counted ++
        (task.stage.next settings forced directory work.sources task.input).2.counted
          task.stage := by
      rw [Work.advance, htask]
    have hle : (if task.stage.isWritten ∧ task.input.format forced = format then 1 else 0) ≤
        work.tasks.countP fun task => task.stage.isWritten ∧ task.input.format forced = format := by
      split
      · rename_i hwritten
        exact List.countP_pos_iff.mpr ⟨task, List.mem_of_getElem? htask, decide_eq_true hwritten⟩
      · exact Nat.zero_le _
    rw [tasks_advance htask, List.countP_set hlt, hcounted, List.count_append, h.counted format,
      hget]
    simp only [decide_eq_true_eq]
    omega

theorem Counts.run (h : work.Counts forced) (positions : List Nat) :
    (work.run settings forced directory positions).Counts forced := by
  induction positions generalizing work with
  | nil => exact h
  | cons position positions ih => exact ih (h.advance position)

/-! ### What a run writes -/

/-- Whether the step on the input at a position writes its output. -/
def WritesNow (directory : Path) (work : Work) (position : Nat) : Prop :=
  ∃ task, work.tasks[position]? = some task ∧
    task.stage.WritesNow directory work.sources task.input

/-- Whether one of several steps writes the output of the input at a position. -/
def Writes (settings : Settings) (forced : Option DocumentFormat) (directory : Path) (work : Work)
    (positions : List Nat) (position : Nat) : Prop :=
  ∃ before after, positions = before ++ position :: after ∧
    (work.run settings forced directory before).WritesNow directory position

private theorem writes_cons_iff {first : Nat} {rest : List Nat} :
    work.Writes settings forced directory (first :: rest) position ↔
      first = position ∧ work.WritesNow directory position ∨
        (work.advance settings forced directory first).Writes settings forced directory rest
          position := by
  constructor
  · rintro ⟨_ | ⟨step, before⟩, after, hpositions, hwrites⟩
    · rw [List.nil_append, List.cons.injEq] at hpositions
      exact .inl ⟨hpositions.1, hwrites⟩
    · rw [List.cons_append, List.cons.injEq] at hpositions
      obtain ⟨rfl, hrest⟩ := hpositions
      exact .inr ⟨before, after, hrest, hwrites⟩
  · rintro (⟨rfl, hwrites⟩ | ⟨before, after, rfl, hwrites⟩)
    · exact ⟨[], rest, rfl, hwrites⟩
    · exact ⟨first :: before, after, rfl, hwrites⟩

/-- The inputs whose work has ended without an error are those whose output was written. -/
theorem isWritten_run_iff {positions : List Nat} {last : Task}
    (htask : work.tasks[position]? = some task)
    (hlast : (work.run settings forced directory positions).tasks[position]? = some last) :
    last.stage.isWritten = true ↔
      task.stage.isWritten = true ∨ work.Writes settings forced directory positions position := by
  induction positions generalizing work task with
  | nil =>
    rw [run_nil, htask, Option.some_inj] at hlast
    have hnone : ¬ work.Writes settings forced directory [] position := by
      rintro ⟨before, after, hpositions, -⟩
      simp at hpositions
    rw [hlast, or_iff_left hnone]
  | cons first rest ih =>
    rw [run_cons] at hlast
    rw [writes_cons_iff, ← or_assoc]
    rcases eq_or_ne first position with rfl | hne
    · rw [ih (getElem?_advance_self htask) hlast, Stage.isWritten_next_iff]
      simp [WritesNow, htask]
    · rw [ih (by rwa [getElem?_advance_of_ne hne]) hlast]
      simp [hne]

/-! ### At the end -/

private theorem counts_ending (settings : Settings) (forced : Option DocumentFormat)
    (directory : Path) (ready : Sources) (inputs : List Input) (schedule : Schedule) :
    (ending settings forced directory ready inputs schedule).Counts forced :=
  (counts_start forced ready inputs).run _

/-- What has been counted of a format is the number of inputs of the format that are written. -/
private theorem Counts.count_eq (h : work.Counts forced) (format : DocumentFormat) :
    work.counted.count format = countOf forced work.written format := by
  rw [h.counted, countOf, written, List.countP_map, List.countP_filter]
  refine List.countP_congr fun task _ => ?_
  simp [and_comm]

end Work

/-! ### What is told -/

/-- Whether a notice is about the progress. -/
def Notice.isProgress : Notice → Bool
  | .progress _ => true
  | _ => false

/-- Whether notices tell rightly how many inputs there were and how many of them were written: in
the one line about the progress, in the last message, and by the messages about those that
failed. -/
structure TellsCounts (forced : Option DocumentFormat) (inputs written : List Input)
    (directory : Path) (notices : List Notice) (counters : List Progress) : Prop where
  line : notices.filter Notice.isProgress = [.progress counters]
  display : (Notice.progress counters).display = Channel.render.mark ++ " " ++
    String.intercalate " " (counters.map fun counter => counter.format.name ++ "(" ++
      toString counter.done ++ "/" ++ toString counter.total ++ ")") ++ "\n"
  shown : counters = countersOf forced inputs written
  within : ∀ counter ∈ counters, counter.done ≤ counter.total
  total : (counters.map (·.total)).sum = inputs.length
  done : (counters.map (·.done)).sum = written.length
  last : notices.getLast? = some (.log .render
    ("wrote " ++ Text.counted written.length "file" ++ " to " ++ directory.toString))
  failed : written.length + (notices.filter Notice.isError).length = inputs.length

/-- The formats of the counters are different. -/
private theorem nodup_format_progressBefore (forced : Option DocumentFormat) (inputs : List Input) :
    ((progressBefore forced inputs).map (·.format)).Nodup := by
  rw [progressBefore_eq]
  exact List.Nodup.sublist (List.filter_sublist.map _)
    (show [DocumentFormat.html, .markdown].Nodup by decide)

/-- The counters in the end, if what has been counted of each format is what has been written. -/
private theorem progressAfter_eq {counted : List DocumentFormat}
    (h : ∀ format, counted.count format = countOf forced written format) :
    progressAfter forced inputs counted = countersOf forced inputs written := by
  rw [progressAfter, foldl_increment (nodup_format_progressBefore forced inputs),
    progressBefore_eq, countersOf, countersOf, List.filter_map, List.filter_map, List.map_map]
  refine List.map_congr_left fun format _ => ?_
  rw [Function.comp_apply, h]
  exact congrArg (Progress.mk _ · _) (Nat.zero_add _)

/-- Counters of formats without inputs add nothing to a sum. -/
private theorem sum_map_filter_total {value : Progress → Nat} {counters : List Progress}
    (h : ∀ counter ∈ counters, counter.total = 0 → value counter = 0) :
    ((counters.filter fun counter => counter.total ≠ 0).map value).sum =
      (counters.map value).sum := by
  have hrest : ((counters.filter fun counter => ¬ counter.total ≠ 0).map value).sum = 0 := by
    refine List.sum_eq_zero fun number hnumber => ?_
    obtain ⟨counter, hcounter, rfl⟩ := List.mem_map.mp hnumber
    obtain ⟨hmem, htotal⟩ := List.mem_filter.mp hcounter
    exact h counter hmem (by simpa using htotal)
  have hsum := List.sum_map_filter_add_sum_map_filter_not (fun counter : Progress =>
    counter.total ≠ 0) value counters
  omega

theorem sum_total_countersOf (forced : Option DocumentFormat) (inputs written : List Input) :
    ((countersOf forced inputs written).map (·.total)).sum = inputs.length := by
  rw [countersOf, sum_map_filter_total fun _ _ => id]
  exact countOf_html_add_countOf_markdown forced inputs

theorem sum_done_countersOf (h : written.Sublist inputs) :
    ((countersOf forced inputs written).map (·.done)).sum = written.length := by
  rw [countersOf, sum_map_filter_total fun counter hcounter htotal => ?_]
  · exact countOf_html_add_countOf_markdown forced written
  · -- without inputs of a format, none of them is written
    obtain ⟨format, -, rfl⟩ := List.mem_map.mp hcounter
    exact Nat.eq_zero_of_le_zero (htotal ▸ h.countP_le)

theorem done_le_total_of_mem_countersOf (h : written.Sublist inputs) {counter : Progress}
    (hcounter : counter ∈ countersOf forced inputs written) : counter.done ≤ counter.total := by
  obtain ⟨format, -, rfl⟩ := List.mem_map.mp (List.mem_of_mem_filter hcounter)
  exact h.countP_le

private theorem Stage.exists_detail_of_mem_notices {stage : Stage} {notice : Notice}
    (h : notice ∈ stage.notices) : ∃ message, notice = .detail .render message := by
  cases stage with
  | rendered result => exact Rendered.exists_detail_of_mem_notices h
  | waiting | compared result | placed result | finished written => cases h

namespace Work

/-- While the work goes on, only details are told. -/
private theorem exists_detail_of_mem_notices_run {positions : List Nat} {notice : Notice}
    (h : ∀ notice ∈ work.notices, ∃ message, notice = .detail .render message)
    (hnotice : notice ∈ (work.run settings forced directory positions).notices) :
    ∃ message, notice = .detail .render message := by
  induction positions generalizing work with
  | nil => exact h notice hnotice
  | cons position positions ih =>
    refine ih (fun other hother => ?_) hnotice
    rw [Work.advance] at hother
    split at hother
    · exact h other hother
    · rcases List.mem_append.mp hother with hold | hnew
      · exact h other hold
      · exact Stage.exists_detail_of_mem_notices hnew

private theorem filter_notices_ending (settings : Settings) (forced : Option DocumentFormat)
    (directory : Path) (ready : Sources) (inputs : List Input) (schedule : Schedule)
    {isKind : Notice → Bool} (h : ∀ message, isKind (.detail .render message) = false) :
    (ending settings forced directory ready inputs schedule).notices.filter isKind = [] := by
  have hstart : ∀ notice ∈ (start ready inputs).notices, ∃ message,
      notice = .detail .render message := fun _ hnone => absurd hnone List.not_mem_nil
  refine List.filter_eq_nil_iff.mpr fun notice hnotice => ?_
  obtain ⟨message, rfl⟩ := exists_detail_of_mem_notices_run hstart hnotice
  simp [h message]

private theorem exists_log_of_mem_errors {notice : Notice} (h : notice ∈ work.errors) :
    ∃ message, notice = .log .error message := by
  obtain ⟨⟨input, written⟩, -, hnotice⟩ := List.mem_filterMap.mp h
  obtain ⟨error, -, rfl⟩ := Option.map_eq_some_iff.mp hnotice
  exact ⟨_, rfl⟩

private theorem written_sublist_ending (settings : Settings) (forced : Option DocumentFormat)
    (directory : Path) (ready : Sources) (inputs : List Input) (schedule : Schedule) :
    (ending settings forced directory ready inputs schedule).written.Sublist inputs := by
  conv_rhs => rw [← map_input_ending settings forced directory ready inputs schedule]
  exact List.filter_sublist.map _

end Work

/-- The counters in the end, the number in the last message and the messages about inputs that
failed agree. -/
theorem tellsCounts_renderToDirectory {sources : Sources} {files : FileSystem}
    (hmade : sources.files.makeDirectories directory = (files, none)) (settings : Settings)
    (forced : Option DocumentFormat) (schedule : Schedule) (inputs : List Input) :
    let work := Work.ending settings forced directory { sources with files } inputs schedule
    TellsCounts forced inputs work.written directory
      (renderToDirectory sources settings forced schedule directory inputs).notices
      (progressAfter forced inputs work.counted) := by
  intro work
  have hnotices := notices_renderToDirectory hmade settings forced schedule inputs
  have hsublist : work.written.Sublist inputs := Work.written_sublist_ending ..
  have hcounters := @progressAfter_eq forced inputs work.written work.counted
    (Work.counts_ending settings forced directory _ inputs schedule).count_eq
  have hprogress : work.errors.filter Notice.isProgress = [] := by
    refine List.filter_eq_nil_iff.mpr fun notice hnotice => ?_
    obtain ⟨message, rfl⟩ := Work.exists_log_of_mem_errors hnotice
    simp [Notice.isProgress]
  have herrors : work.errors.filter Notice.isError = work.errors := by
    refine List.filter_eq_self.mpr fun notice hnotice => ?_
    obtain ⟨message, rfl⟩ := Work.exists_log_of_mem_errors hnotice
    rfl
  refine ⟨?_, rfl, hcounters, ?_, ?_, ?_, ?_, ?_⟩
  · rw [hnotices, List.filter_append, List.filter_append, List.filter_append, hprogress,
      Work.filter_notices_ending _ _ _ _ _ _ fun _ => rfl]
    rfl
  · rw [hcounters]
    exact fun _ => done_le_total_of_mem_countersOf hsublist
  · rw [hcounters, sum_total_countersOf]
  · rw [hcounters, sum_done_countersOf hsublist]
  · rw [hnotices, List.getLast?_concat]
  · rw [hnotices, List.filter_append, List.filter_append, List.filter_append, herrors,
      Work.filter_notices_ending _ _ _ _ _ _ fun _ => rfl]
    change work.written.length + ([] ++ work.errors ++ []).length = inputs.length
    rw [List.nil_append, List.append_nil]
    exact Work.length_written_ending ..

/-- What has been counted has a counter. -/
private theorem exists_counter_of_mem_counted (h : work.Counts forced)
    (hwritten : work.written.Sublist inputs) (hformat : format ∈ work.counted) :
    ∃ counter ∈ progressBefore forced inputs, counter.format.name = format.name := by
  have hcount : 0 < countOf forced work.written format := by
    rw [← h.count_eq]
    exact List.count_pos_iff.mpr hformat
  have htotal : 0 < countOf forced inputs format := hcount.trans_le hwritten.countP_le
  rw [progressBefore_eq]
  refine ⟨counterOf forced inputs [] format, List.mem_filter.mpr ⟨?_, ?_⟩, rfl⟩
  · refine List.mem_map_of_mem ?_
    cases format <;> decide
  · exact decide_eq_true (Nat.ne_of_gt htotal)

/-- In every order of the work on inputs for a directory, the counters, the number in the last
message and the messages about inputs that failed tell what happened: how many inputs each format
had and how many of them were written. Each format that is counted has a counter. -/
theorem counts_renderToDirectory {sources : Sources} {files : FileSystem}
    (hmade : sources.files.makeDirectories directory = (files, none)) (settings : Settings)
    (forced : Option DocumentFormat) (schedule : Schedule) (inputs : List Input) :
    let ready : Sources := { sources with files }
    let work := Work.ending settings forced directory ready inputs schedule
    (∃ counters, TellsCounts forced inputs work.written directory
        (renderToDirectory sources settings forced schedule directory inputs).notices counters) ∧
      (∀ format ∈ work.counted, ∃ counter ∈ progressBefore forced inputs,
        counter.format.name = format.name) ∧
      work.tasks.map (·.input) = inputs ∧
      ∀ position task, work.tasks[position]? = some task →
        (task.stage.isWritten = true ↔ (Work.start ready inputs).Writes settings forced directory
          (schedule.positions inputs.length) position) := by
  intro ready work
  have hinputs : work.tasks.map (·.input) = inputs := Work.map_input_ending ..
  refine ⟨⟨_, tellsCounts_renderToDirectory hmade settings forced schedule inputs⟩,
    fun format hformat => ?_, hinputs, fun position task htask => ?_⟩
  · exact exists_counter_of_mem_counted (Work.counts_ending settings forced directory ready inputs
      schedule) (Work.written_sublist_ending ..) hformat
  · have hinput : inputs[position]? = some task.input := by
      rw [← hinputs, List.getElem?_map, htask]
      rfl
    have hstart : (Work.start ready inputs).tasks[position]? = some ⟨task.input, .waiting⟩ := by
      rw [Work.start, List.getElem?_map, hinput]
      rfl
    rw [Work.isWritten_run_iff hstart htask]
    exact or_iff_right Bool.false_ne_true

/-- Of two pages, the one that is not text is not written. -/
theorem counts_renderToDirectory_noteAndBroken :
    let inputs : List Input := [.file brokenPath none, .file notePath none]
    let outcome := renderToDirectory noteAndBroken {} none (fun _ => [1, 0, 1]) ⟨["out"]⟩ inputs
    (noteAndBroken.files.makeDirectories ⟨["out"]⟩).2 = none ∧
      TellsCounts none inputs [.file notePath none] ⟨["out"]⟩ outcome.notices [⟨.html, 1, 2⟩] := by
  intro inputs outcome
  have hmade : (noteAndBroken.files.makeDirectories ⟨["out"]⟩).2 = none := by
    decide +kernel
  obtain ⟨⟨counters, htells⟩, -⟩ :=
    counts_renderToDirectory (Prod.ext rfl hmade) {} none (fun _ => [1, 0, 1]) inputs
  have hwritten : (Work.ending {} none ⟨["out"]⟩
      { noteAndBroken with files := (noteAndBroken.files.makeDirectories ⟨["out"]⟩).1 } inputs
      fun _ => [1, 0, 1]).written = [.file notePath none] := by
    decide +kernel
  rw [hwritten] at htells
  have hcounters : counters = [⟨.html, 1, 2⟩] := htells.shown.trans (by decide +kernel)
  exact ⟨hmade, hcounters ▸ htells⟩

end IconMarkup.CommandLine
