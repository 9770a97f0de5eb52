import Mathlib.Data.List.Basic
import IconMarkup.Input.Input

/-!
# Paths that are refused

When the paths on the command line stand for no inputs. A path is refused for what it is and for the
paths before it (`Refused`); one that is not refused stands for some inputs, and the others go on
after it (`inputsFrom_cons_of_not_refused`). So the error is that of the first path that is refused
(`inputsFrom_eq_error_iff`), and there is one if and only if some path is refused, at any position
(`exists_collectInputs_eq_error_iff`).
-/

namespace IconMarkup

open Files

variable {files : FileSystem} {forced : Option DocumentFormat} {before paths rest : List Path}
  {path : Path} {error : InputError} {seen : Bool}

/-! ### One path -/

/-- Why a path is refused after the paths before it: it is a second standard input, a file whose
format is neither known nor given, or a path that leads nowhere. -/
inductive Refused (files : FileSystem) (forced : Option DocumentFormat) (before : List Path) :
    Path → InputError → Prop
  | repeated (hbefore : stdinPath ∈ before) :
    Refused files forced before stdinPath .repeatedStdin
  | unsupported {path : Path} (hpath : path ≠ stdinPath) (hfile : files.isFile path = true)
    (hforced : forced = none) (hformat : DocumentFormat.ofPath? path = none) :
    Refused files forced before path (.unsupported path)
  | notFound {path : Path} (hpath : path ≠ stdinPath) (hfile : files.isFile path = false)
    (hdirectory : files.isDirectory path = false) :
    Refused files forced before path (.notFound path)

/-- The inputs that a path stands for by itself. -/
def inputsOf (files : FileSystem) (path : Path) : List Input :=
  if path = stdinPath then [.stdin]
  else if files.isFile path then [.file path none]
  else (documentsBelow files path).map fun file => .file file (some path)

theorem inputsFrom_cons_of_refused (hseen : seen = true ↔ stdinPath ∈ before)
    (h : Refused files forced before path error) :
    inputsFrom files forced seen (path :: rest) = .error error := by
  cases h with
  | repeated hbefore => simp [inputsFrom, hseen.mpr hbefore]
  | unsupported hpath hfile hforced hformat => simp [inputsFrom, hpath, hfile, hforced, hformat]
  | notFound hpath hfile hdirectory => simp [inputsFrom, hpath, hfile, hdirectory]

/-- A path that is not refused stands for its inputs, and the others follow. -/
theorem inputsFrom_cons_of_not_refused (hseen : seen = true ↔ stdinPath ∈ before)
    (h : ∀ error, ¬ Refused files forced before path error) :
    inputsFrom files forced seen (path :: rest) =
      (inputsFrom files forced (seen || decide (path = stdinPath)) rest).map
        (inputsOf files path ++ ·) := by
  rw [inputsFrom, inputsOf]
  by_cases hpath : path = stdinPath
  · subst hpath
    have hunseen : seen = false := by
      rw [← Bool.not_eq_true, hseen]
      exact fun hbefore => h _ (.repeated hbefore)
    simp only [if_true, hunseen, decide_true, Bool.or_true]
    rcases inputsFrom files forced true rest with fault | inputs <;> rfl
  rw [decide_eq_false hpath, Bool.or_false, if_neg hpath, if_neg hpath]
  rcases hfile : files.isFile path with _ | _
  · rcases hdirectory : files.isDirectory path with _ | _
    · exact absurd (.notFound hpath hfile hdirectory) (h _)
    · simp only [if_true, Bool.false_eq_true, if_false]
      rcases inputsFrom files forced seen rest with fault | inputs <;> rfl
  · have hknown : (forced.isNone && (DocumentFormat.ofPath? path).isNone) = false := by
      rw [← Bool.not_eq_true, Bool.and_eq_true, Option.isNone_iff_eq_none,
        Option.isNone_iff_eq_none]
      exact fun ⟨hforced, hformat⟩ => h _ (.unsupported hpath hfile hforced hformat)
    simp only [if_true, hknown, Bool.false_eq_true, if_false]
    rcases inputsFrom files forced seen rest with fault | inputs <;> rfl

/-- After one more path, the standard input is among the inputs if it was before or is the path. -/
theorem seen_concat_iff (hseen : seen = true ↔ stdinPath ∈ before) (path : Path) :
    (seen || decide (path = stdinPath)) = true ↔ stdinPath ∈ before ++ [path] := by
  rw [Bool.or_eq_true, hseen, decide_eq_true_iff, List.mem_append, List.mem_singleton,
    eq_comm (a := path)]

/-! ### Paths in turn -/

/-- The error of the first path that is refused. -/
inductive FirstRefused (files : FileSystem) (forced : Option DocumentFormat) :
    (before paths : List Path) → InputError → Prop
  | here {before rest : List Path} {path : Path} {error : InputError}
    (h : Refused files forced before path error) :
    FirstRefused files forced before (path :: rest) error
  | there {before rest : List Path} {path : Path} {error : InputError}
    (hpath : ∀ error, ¬ Refused files forced before path error)
    (hrest : FirstRefused files forced (before ++ [path]) rest error) :
    FirstRefused files forced before (path :: rest) error

theorem inputsFrom_eq_error_iff (hseen : seen = true ↔ stdinPath ∈ before) :
    inputsFrom files forced seen paths = .error error ↔
      FirstRefused files forced before paths error := by
  induction paths generalizing seen before with
  | nil =>
    rw [inputsFrom]
    exact iff_of_false (by simp) (by rintro ⟨⟩)
  | cons path rest ih =>
    have hnext := seen_concat_iff hseen path
    by_cases hpath : ∃ error, Refused files forced before path error
    · obtain ⟨found, hfound⟩ := hpath
      rw [inputsFrom_cons_of_refused hseen hfound, Except.error.injEq]
      constructor
      · rintro rfl
        exact .here hfound
      · rintro (h | ⟨hpath, -⟩)
        · have hsame : inputsFrom files forced seen (path :: rest) = .error error :=
            inputsFrom_cons_of_refused hseen h
          rw [inputsFrom_cons_of_refused hseen hfound] at hsame
          exact Except.error.inj hsame
        · exact absurd hfound (hpath found)
    · rw [not_exists] at hpath
      rw [inputsFrom_cons_of_not_refused hseen hpath]
      constructor
      · intro h
        refine .there hpath ((ih hnext).mp ?_)
        rcases hrest : inputsFrom files forced (seen || decide (path = stdinPath)) rest with
          fault | inputs <;> rw [hrest] at h <;> cases h
        rfl
      · rintro (h | ⟨-, hrest⟩)
        · exact absurd h (hpath error)
        · rw [(ih hnext).mpr hrest]
          rfl

/-- There is a first path that is refused if and only if some path is. -/
theorem exists_firstRefused_iff :
    (∃ error, FirstRefused files forced before paths error) ↔
      ∃ first path after error, paths = first ++ path :: after ∧
        Refused files forced (before ++ first) path error := by
  induction paths generalizing before with
  | nil => exact iff_of_false (by rintro ⟨_, ⟨⟩⟩) (by simp)
  | cons path rest ih =>
    constructor
    · rintro ⟨error, h | ⟨-, hrest⟩⟩
      · exact ⟨[], path, rest, error, rfl, by rwa [List.append_nil]⟩
      · obtain ⟨first, other, after, error, rfl, h⟩ := ih.mp ⟨error, hrest⟩
        exact ⟨path :: first, other, after, error, rfl, by rwa [List.append_cons]⟩
    · rintro ⟨first, other, after, error, hpaths, h⟩
      by_cases hpath : ∃ error, Refused files forced before path error
      · obtain ⟨found, hfound⟩ := hpath
        exact ⟨found, .here hfound⟩
      · rw [not_exists] at hpath
        rcases first with _ | ⟨next, first⟩
        · cases hpaths
          rw [List.append_nil] at h
          exact absurd h (hpath error)
        · cases hpaths
          rw [List.append_cons] at h
          obtain ⟨found, hfound⟩ := ih.mpr ⟨first, other, after, error, rfl, h⟩
          exact ⟨found, .there hpath hfound⟩

/-- There are no inputs if and only if some path is refused. -/
theorem exists_collectInputs_eq_error_iff :
    (∃ error, collectInputs files forced paths = .error error) ↔
      ∃ before path after error, paths = before ++ path :: after ∧
        Refused files forced before path error := by
  have hpaths := @exists_firstRefused_iff files forced [] paths
  simp only [List.nil_append] at hpaths
  rw [← hpaths, collectInputs]
  split
  · rename_i hempty
    rw [List.isEmpty_iff] at hempty
    subst hempty
    exact iff_of_false (by simp) (by rintro ⟨_, ⟨⟩⟩)
  · exact exists_congr fun error => inputsFrom_eq_error_iff (by simp)

end IconMarkup
