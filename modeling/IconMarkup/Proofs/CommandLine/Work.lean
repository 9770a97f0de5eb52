import IconMarkup.CommandLine.Rendering
import IconMarkup.Proofs.Files.Growth

/-!
# The work on inputs

What every order of steps has in common. A step changes the files only by making them grow
(`grows_next`), and it changes no other task. Each step on a task that is not over brings it closer
to its end (`rank_next`), so that after four steps on each task all work is over, whatever comes
between them (`isOver_run`); from then on steps change nothing (`run_of_isOver`).
-/

namespace IconMarkup.CommandLine

open IconMarkup.Config IconMarkup.Files

variable {settings : Settings} {forced : Option DocumentFormat} {directory : Path}

/-! ### One step -/

/-- How many steps have been taken, at least. -/
def Stage.rank : Stage → Nat
  | .waiting => 0
  | .rendered _ => 1
  | .compared _ => 2
  | .placed _ => 3
  | .finished _ => 4

/-- In a step of one input directories stay directories and files stay files. -/
theorem Stage.grows_next (sources : Sources) (input : Input) (stage : Stage) :
    sources.files.Grows (stage.next settings forced directory sources input).1 := by
  cases stage with
  | waiting =>
    rw [Stage.next]
    split <;> exact .refl _
  | rendered result =>
    rw [Stage.next]
    split <;> exact .refl _
  | compared result =>
    have hgrows := (FileSystem.extends_makeDirectories sources.files
      ((targetOf directory input).parent?.getD .empty)).grows
    rw [Stage.next]
    split <;> rename_i h <;> rw [h] at hgrows <;> exact hgrows
  | placed result =>
    rw [Stage.next]
    split
    · exact .refl _
    · rename_i h
      exact FileSystem.grows_writeFile h
  | finished written => exact .refl _

/-- A step brings an input nearer to its end, unless it has come there. -/
theorem Stage.rank_next (sources : Sources) (input : Input) (stage : Stage) :
    min Stage.steps (stage.rank + 1) ≤
      (stage.next settings forced directory sources input).2.rank := by
  cases stage with
  | waiting | rendered result | compared result | placed result =>
    rw [Stage.next]
    split <;> simp [Stage.rank, Stage.steps]
  | finished written => exact Nat.min_le_left ..

namespace Work

variable {work : Work} {task : Task} {position other : Nat}

theorem advance_of_none (h : work.tasks[position]? = none) :
    work.advance settings forced directory position = work := by
  rw [advance, h]

/-- The files after a step are those that the stage of its task leaves. -/
theorem files_advance (h : work.tasks[position]? = some task) :
    (work.advance settings forced directory position).sources.files =
      (task.stage.next settings forced directory work.sources task.input).1 := by
  rw [advance, h]

/-- A step changes the stage of its own task. -/
theorem tasks_advance (h : work.tasks[position]? = some task) :
    (work.advance settings forced directory position).tasks = work.tasks.set position
      ⟨task.input, (task.stage.next settings forced directory work.sources task.input).2⟩ := by
  rw [advance, h]

@[simp]
theorem stdin_advance : (work.advance settings forced directory position).sources.stdin =
    work.sources.stdin := by
  rw [advance]
  split <;> rfl

theorem getElem?_advance_self (h : work.tasks[position]? = some task) :
    (work.advance settings forced directory position).tasks[position]? = some
      ⟨task.input, (task.stage.next settings forced directory work.sources task.input).2⟩ := by
  obtain ⟨hlt, -⟩ := List.getElem?_eq_some_iff.mp h
  rw [tasks_advance h, List.getElem?_set_self hlt]

/-- A step whose outcome is known. -/
theorem advance_of_next {files : FileSystem} {stage : Stage} (h : work.tasks[position]? = some task)
    (hnext : task.stage.next settings forced directory work.sources task.input = (files, stage)) :
    (work.advance settings forced directory position).sources.files = files ∧
      (work.advance settings forced directory position).tasks[position]? =
        some ⟨task.input, stage⟩ := by
  rw [files_advance h, getElem?_advance_self h, hnext]
  exact ⟨rfl, rfl⟩

/-- The other tasks stay as they are. -/
theorem getElem?_advance_of_ne (h : position ≠ other) :
    (work.advance settings forced directory position).tasks[other]? = work.tasks[other]? := by
  rcases htask : work.tasks[position]? with _ | task
  · rw [advance_of_none htask]
  · rw [tasks_advance htask, List.getElem?_set_ne h]

/-- A step leaves each input at its position. -/
theorem map_input_advance : (work.advance settings forced directory position).tasks.map (·.input) =
    work.tasks.map (·.input) := by
  rcases htask : work.tasks[position]? with _ | task
  · rw [advance_of_none htask]
  refine List.ext_getElem? fun other => ?_
  rw [List.getElem?_map, List.getElem?_map]
  rcases eq_or_ne position other with rfl | hne
  · rw [getElem?_advance_self htask, htask]
    rfl
  · rw [getElem?_advance_of_ne hne]

/-- What stands anywhere stays a directory or a file, whatever position a step is at. -/
theorem grows_advance (work : Work) (position : Nat) :
    work.sources.files.Grows (work.advance settings forced directory position).sources.files := by
  rcases htask : work.tasks[position]? with _ | task
  · rw [advance_of_none htask]
    exact .refl _
  · rw [files_advance htask]
    exact Stage.grows_next ..

/-! ### Runs -/

@[simp]
theorem run_nil : work.run settings forced directory [] = work := rfl

theorem run_cons (positions : List Nat) :
    work.run settings forced directory (position :: positions) =
      (work.advance settings forced directory position).run settings forced directory positions :=
  rfl

/-- A run can be taken up where another one has stopped. -/
theorem run_append (first second : List Nat) :
    work.run settings forced directory (first ++ second) =
      (work.run settings forced directory first).run settings forced directory second :=
  List.foldl_append

/-- A run keeps the inputs of the tasks, in their order. -/
theorem map_input_run (positions : List Nat) :
    (work.run settings forced directory positions).tasks.map (·.input) =
      work.tasks.map (·.input) := by
  induction positions generalizing work with
  | nil => rfl
  | cons position positions ih => rw [run_cons, ih, map_input_advance]

/-- What stands anywhere stays a directory or a file along a run. -/
theorem grows_run (work : Work) (positions : List Nat) :
    work.sources.files.Grows (work.run settings forced directory positions).sources.files := by
  induction positions generalizing work with
  | nil => exact .refl _
  | cons position positions ih => exact (grows_advance work position).trans (ih _)

/-- Steps on other inputs leave a task as it is. -/
theorem getElem?_run_of_notMem {positions : List Nat} (h : other ∉ positions) :
    (work.run settings forced directory positions).tasks[other]? = work.tasks[other]? := by
  induction positions generalizing work with
  | nil => rfl
  | cons position positions ih =>
    rw [List.mem_cons, not_or] at h
    rw [run_cons, ih h.2, getElem?_advance_of_ne (Ne.symm h.1)]

/-- How far the work on the input at a position has come; where there is no input, it is over. -/
def rankAt (work : Work) (position : Nat) : Nat :=
  match work.tasks[position]? with
  | some task => task.stage.rank
  | none => Stage.steps

/-- A step at a position raises the rank there. -/
private theorem rankAt_advance_self (work : Work) (position : Nat) :
    min Stage.steps (work.rankAt position + 1) ≤
      (work.advance settings forced directory position).rankAt position := by
  rcases htask : work.tasks[position]? with _ | task
  · rw [advance_of_none htask, rankAt, htask]
    exact Nat.min_le_left ..
  · rw [rankAt, rankAt, htask, getElem?_advance_self htask]
    exact Stage.rank_next ..

private theorem rankAt_advance_of_ne (h : position ≠ other) :
    (work.advance settings forced directory position).rankAt other = work.rankAt other := by
  rw [rankAt, rankAt, getElem?_advance_of_ne h]

/-- A run brings each task as many steps further as it takes on it. -/
theorem rankAt_run (work : Work) (positions : List Nat) (position : Nat) :
    min Stage.steps (work.rankAt position + positions.count position) ≤
      (work.run settings forced directory positions).rankAt position := by
  induction positions generalizing work with
  | nil => exact Nat.min_le_right ..
  | cons first rest ih =>
    -- the first step is a step on this task, or leaves its rank as it is
    have hrest := ih (work.advance settings forced directory first)
    rw [run_cons]
    rcases eq_or_ne first position with rfl | hne
    · have hfirst := @rankAt_advance_self settings forced directory work first
      rw [List.count_cons_self]
      omega
    · rwa [rankAt_advance_of_ne hne, ← List.count_cons_of_ne hne] at hrest

/-- Whether the work on all inputs is over. -/
def IsOver (work : Work) : Prop :=
  ∀ position, Stage.steps ≤ work.rankAt position

/-- Work that is over does not change any more. -/
private theorem advance_of_isOver (h : work.IsOver) (position : Nat) :
    work.advance settings forced directory position = work := by
  rcases htask : work.tasks[position]? with _ | task
  · exact advance_of_none htask
  · obtain ⟨input, stage⟩ := task
    have hrank := h position
    rw [rankAt, htask] at hrank
    cases stage with
    | finished written =>
      obtain ⟨hlt, heq⟩ := List.getElem?_eq_some_iff.mp htask
      have hset : work.tasks.set position ⟨input, .finished written⟩ = work.tasks := by
        rw [← heq, List.set_getElem_self]
      -- the task is put back as it was
      rw [advance, htask]
      simp only [Stage.next, Stage.notices, Stage.counted, List.append_nil, hset]
    | waiting => simp [Stage.rank, Stage.steps] at hrank
    | rendered result => simp [Stage.rank, Stage.steps] at hrank
    | compared result => simp [Stage.rank, Stage.steps] at hrank
    | placed result => simp [Stage.rank, Stage.steps] at hrank

/-- Once the work is over, steps change nothing. -/
theorem run_of_isOver (h : work.IsOver) (positions : List Nat) :
    work.run settings forced directory positions = work := by
  induction positions with
  | nil => rfl
  | cons position positions ih => rw [run_cons, advance_of_isOver h, ih]

/-- The work is over when enough steps have been taken on each input, whatever their order. -/
theorem isOver_run {positions : List Nat}
    (h : ∀ position < work.tasks.length, Stage.steps ≤ positions.count position) :
    (work.run settings forced directory positions).IsOver := by
  intro position
  have hrun := @rankAt_run settings forced directory work positions position
  by_cases hlt : position < work.tasks.length
  · have hcount := h position hlt
    omega
  · have hnone : work.tasks[position]? = none := List.getElem?_eq_none (by omega)
    rw [rankAt, hnone] at hrun
    simp only at hrun
    omega

theorem count_flatMap_replicate (count position : Nat) (positions : List Nat) :
    (positions.flatMap fun other => List.replicate count other).count position =
      count * positions.count position := by
  induction positions with
  | nil => simp
  | cons other positions ih =>
    rw [List.flatMap_cons, List.count_append, ih, List.count_replicate, List.count_cons,
      Nat.mul_add]
    by_cases h : other = position <;> simp [h, Nat.add_comm]

/-- Every schedule brings the work on all inputs to its end. -/
theorem isOver_run_positions (sources : Sources) (inputs : List Input) (schedule : Schedule) :
    ((start sources inputs).run settings forced directory
      (schedule.positions inputs.length)).IsOver := by
  refine isOver_run fun position hlt => ?_
  rw [start, List.length_map] at hlt
  rw [Schedule.positions, List.count_append]
  rw [count_flatMap_replicate, List.count_range, if_pos hlt]
  omega

end Work

end IconMarkup.CommandLine
