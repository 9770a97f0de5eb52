import Mathlib.Algebra.Order.BigOperators.Group.List
import Mathlib.Data.Finset.Sort
import Mathlib.Data.List.Lex
import IconMarkup.Proofs.Input.Collected
import IconMarkup.Proofs.Text.ByteOrder

/-!
# Walks

In which order the files below a directory are found. The order is that of a walk which goes through
the entries of a directory in the order of the bytes of their names, leaves out the ones whose name
begins with a dot, and goes into each directory where its name stands (`DepthFirst`). Sorting the
names that lead to all files gives the same (`depthFirst_filesBelow`), because both lists have the
same members in one strict order (`DepthFirst.eq_filesBelow`).
-/

namespace IconMarkup

open Files Files.FileSystem

variable {files : FileSystem} {location : Location} {names : List String}
  {found : List (List String)}

/-- The order in which a walk from a place finds files, each one as the names that lead to it: a
file is found at once, and in a directory what is found under one name comes before what is found
under the next one. -/
inductive DepthFirst (files : FileSystem) : Location → List (List String) → Prop
  | file {location : Location} {content : ByteArray}
    (h : files.get? location = some (.file content)) : DepthFirst files location [[]]
  | directory {location : Location} {names : List String} {parts : String → List (List String)}
    (h : files.get? location = some .directory)
    (hsorted : names.Pairwise fun a b => Text.utf8 a < Text.utf8 b)
    (hnames : ∀ name, name ∈ names ↔
      (files.get? (location ++ [name])).isSome = true ∧ name.startsWith "." = false)
    (hparts : ∀ name ∈ names, DepthFirst files (location ++ [name]) (parts name)) :
    DepthFirst files location (names.flatMap fun name => (parts name).map (name :: ·))

/-- Whether names lead from a place to a file without a name that begins with a dot. -/
def LeadsToFile (files : FileSystem) (location : Location) (names : List String) : Prop :=
  (∃ content, files.get? (location ++ names) = some (.file content)) ∧
    ∀ name ∈ names, name.startsWith "." = false

/-! ### The order of names -/

/-- Names come before others in the order of lists. -/
private theorem precedes_eq_true_iff {a b : List String} : precedes a b = true ↔ a ≤ b := by
  induction a generalizing b with
  | nil => exact iff_of_true (by rw [precedes]) (not_lt.mp (List.not_lt_nil b))
  | cons name names ih =>
    cases b with
    | nil => exact iff_of_false (by simp [precedes]) (not_le.mpr (List.nil_lt_cons name names))
    | cons other others =>
      rw [precedes, ← not_lt, List.cons_lt_cons_iff, Bool.or_eq_true, Bool.and_eq_true, ih,
        decide_eq_true_iff, beq_iff_eq, ← not_lt]
      rcases lt_trichotomy name other with hlt | rfl | hgt
      · simp [hlt, hlt.not_gt, hlt.ne']
      · simp
      · simp [hgt, hgt.not_gt, hgt.ne']

private theorem mem_entries_of_get? {content : ByteArray}
    (h : files.get? location = some (.file content)) :
    (location, .file content) ∈ files.entries := by
  cases location with
  | nil => cases h
  | cons name names =>
    obtain ⟨before, after, hlist, -⟩ := List.lookup_eq_some_iff.mp h
    rw [hlist]
    simp

theorem mem_filesBelow_iff : names ∈ files.filesBelow location ↔
    LeadsToFile files location names := by
  constructor
  · intro h
    exact ⟨get?_of_mem_filesBelow h, not_startsWith_of_mem_filesBelow h⟩
  · rintro ⟨⟨content, hcontent⟩, hnames⟩
    rw [filesBelow, List.mem_mergeSort, List.mem_filter, List.mem_filterMap]
    refine ⟨⟨_, mem_entries_of_get? hcontent, ?_⟩, by simpa using hnames⟩
    simp

theorem nodup_filesBelow (files : FileSystem) (location : Location) :
    (files.filesBelow location).Nodup := by
  rw [filesBelow, (List.mergeSort_perm _ _).nodup_iff]
  refine List.Nodup.filter _ (List.Pairwise.filterMap _ ?_ (List.pairwise_map.mp files.distinct))
  rintro ⟨first, entry⟩ ⟨second, entry'⟩ hne names hnames _ hnames' rfl
  -- the names that lead to a file tell its place
  rcases entry with _ | content <;> rcases entry' with _ | content' <;>
    simp only [Option.ite_none_right_eq_some, Option.some.injEq, reduceCtorEq] at hnames hnames'
  obtain ⟨⟨below, rfl⟩, hbelow⟩ := hnames.imp_left List.isPrefixOf_iff_prefix.mp
  obtain ⟨⟨below', rfl⟩, hbelow'⟩ := hnames'.imp_left List.isPrefixOf_iff_prefix.mp
  rw [List.drop_left] at hbelow hbelow'
  exact hne (by rw [hbelow, hbelow'])

/-- The files are listed in a strict order. -/
theorem pairwise_filesBelow (files : FileSystem) (location : Location) :
    (files.filesBelow location).Pairwise (· < ·) := by
  have hsorted : (files.filesBelow location).Pairwise fun a b => precedes a b = true := by
    refine List.pairwise_mergeSort (fun a b c hab hbc => ?_) (fun a b => ?_) _
    · rw [precedes_eq_true_iff] at hab hbc ⊢
      exact hab.trans hbc
    · rw [Bool.or_eq_true, precedes_eq_true_iff, precedes_eq_true_iff]
      exact le_total a b
  refine (hsorted.and (nodup_filesBelow files location)).imp ?_
  rintro a b ⟨hle, hne⟩
  exact (precedes_eq_true_iff.mp hle).lt_of_ne hne

/-! ### The walk -/

/-- Names lead from a directory to a file if the first one is that of an entry, and the others lead
on from there. -/
private theorem leadsToFile_cons_iff {name : String} : LeadsToFile files location (name :: names) ↔
    name.startsWith "." = false ∧ LeadsToFile files (location ++ [name]) names := by
  rw [LeadsToFile, LeadsToFile, List.append_assoc, List.singleton_append, List.forall_mem_cons,
    and_left_comm]

private theorem LeadsToFile.isSome {name : String}
    (h : LeadsToFile files (location ++ [name]) names) :
    (files.get? (location ++ [name])).isSome = true := by
  obtain ⟨⟨content, hcontent⟩, -⟩ := h
  rcases eq_or_ne names [] with rfl | hne
  · rw [List.append_nil] at hcontent
    rw [hcontent]
    rfl
  · rw [get?_of_append hne (by rw [hcontent]; rfl)]
    rfl

/-- A walk finds the names that lead to files. -/
theorem DepthFirst.mem_iff (h : DepthFirst files location found) (names : List String) :
    names ∈ found ↔ LeadsToFile files location names := by
  induction h generalizing names with
  | @file location content h =>
    rw [List.mem_singleton]
    constructor
    · rintro rfl
      exact ⟨⟨content, by rwa [List.append_nil]⟩, by simp⟩
    · rintro ⟨⟨other, hother⟩, -⟩
      by_contra hne
      rw [get?_of_append hne (by rw [hother]; rfl)] at h
      cases h
  | @directory location entries parts h hsorted hentries hparts ih =>
    rw [List.mem_flatMap]
    constructor
    · rintro ⟨name, hname, hnames⟩
      obtain ⟨rest, hrest, rfl⟩ := List.mem_map.mp hnames
      exact leadsToFile_cons_iff.mpr ⟨((hentries name).mp hname).2, (ih name hname rest).mp hrest⟩
    · intro hleads
      cases names with
      | nil =>
        obtain ⟨⟨content, hcontent⟩, -⟩ := hleads
        rw [List.append_nil, h] at hcontent
        cases hcontent
      | cons name rest =>
        obtain ⟨hshown, hrest⟩ := leadsToFile_cons_iff.mp hleads
        have hname : name ∈ entries := (hentries name).mpr ⟨hrest.isSome, hshown⟩
        exact ⟨name, hname, List.mem_map_of_mem ((ih name hname rest).mpr hrest)⟩

/-- A walk finds files in the order of the names that lead to them. -/
theorem DepthFirst.pairwise (h : DepthFirst files location found) : found.Pairwise (· < ·) := by
  induction h with
  | file h => exact List.pairwise_singleton ..
  | @directory location entries parts h hsorted hentries hparts ih =>
    rw [List.pairwise_flatMap]
    constructor
    · intro name hname
      rw [List.pairwise_map]
      exact (ih name hname).imp fun hlt => List.cons_lt_cons_iff.mpr (.inr ⟨rfl, hlt⟩)
    · refine hsorted.imp fun hbytes first hfirst second hsecond => ?_
      obtain ⟨rest, -, rfl⟩ := List.mem_map.mp hfirst
      obtain ⟨rest', -, rfl⟩ := List.mem_map.mp hsecond
      exact List.cons_lt_cons_iff.mpr (.inl (Text.lt_iff_utf8_lt.mpr hbytes))

/-- There is one walk from a place. -/
theorem DepthFirst.eq_filesBelow (h : DepthFirst files location found) :
    found = files.filesBelow location :=
  h.pairwise.eq_of_mem_iff (pairwise_filesBelow files location) fun names => by
    rw [h.mem_iff, mem_filesBelow_iff]

/-- The names of the entries in a directory that a walk looks at, in order. -/
def shownNames (files : FileSystem) (location : Location) : List String :=
  ((files.entries.map fun listed => listed.1.getLastD "").toFinset.filter fun name =>
    (files.get? (location ++ [name])).isSome = true ∧ name.startsWith "." = false).sort (· ≤ ·)

theorem mem_shownNames_iff {name : String} : name ∈ shownNames files location ↔
    (files.get? (location ++ [name])).isSome = true ∧ name.startsWith "." = false := by
  rw [shownNames, Finset.mem_sort, Finset.mem_filter]
  refine and_iff_right_of_imp fun h => ?_
  have hlisted : location ++ [name] ∈ files.entries.map (·.1) :=
    mem_of_get?_ne_none (by simp) (Option.isSome_iff_ne_none.mp h.1)
  obtain ⟨listed, hmem, hplace⟩ := List.mem_map.mp hlisted
  rw [List.mem_toFinset]
  exact List.mem_map.mpr ⟨listed, hmem, by rw [hplace, List.getLastD_concat]⟩

private theorem pairwise_shownNames (files : FileSystem) (location : Location) :
    (shownNames files location).Pairwise fun a b => Text.utf8 a < Text.utf8 b :=
  (Finset.sortedLT_sort _).pairwise.imp Text.utf8_lt

/-- Entries stand at most so deep. -/
private theorem exists_depth (files : FileSystem) : ∃ depth, ∀ {location : Location},
    (files.get? location).isSome = true → location.length ≤ depth := by
  refine ⟨(files.entries.map fun listed => listed.1.length).sum, fun {location} h => ?_⟩
  rcases eq_or_ne location [] with rfl | hne
  · exact Nat.zero_le _
  have hlisted : location ∈ files.entries.map (·.1) :=
    mem_of_get?_ne_none hne (Option.isSome_iff_ne_none.mp h)
  obtain ⟨listed, hmem, rfl⟩ := List.mem_map.mp hlisted
  exact List.le_sum_of_mem (List.mem_map_of_mem hmem)

/-- Sorting the names that lead to files gives the order of the walk. -/
theorem depthFirst_filesBelow (h : (files.get? location).isSome = true) :
    DepthFirst files location (files.filesBelow location) := by
  obtain ⟨depth, hdepth⟩ := exists_depth files
  -- every step of the walk goes deeper
  induction hleft : depth - location.length using Nat.strongRecOn generalizing location with
  | ind left ih =>
    obtain ⟨entry, hentry⟩ := Option.isSome_iff_exists.mp h
    cases entry with
    | file content =>
      have hwalk := DepthFirst.file hentry
      rwa [hwalk.eq_filesBelow] at hwalk
    | directory =>
      have hparts : ∀ name ∈ shownNames files location,
          DepthFirst files (location ++ [name]) (files.filesBelow (location ++ [name])) := by
        intro name hname
        have hsome := (mem_shownNames_iff.mp hname).1
        have hdeeper := hdepth hsome
        have hlength : (location ++ [name]).length = location.length + 1 :=
          List.length_append
        exact ih _ (by omega) hsome rfl
      have hwalk := DepthFirst.directory hentry (pairwise_shownNames files location)
        (fun _ => mem_shownNames_iff) hparts
      rwa [hwalk.eq_filesBelow] at hwalk

end IconMarkup
