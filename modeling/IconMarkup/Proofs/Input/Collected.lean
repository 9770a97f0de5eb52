import IconMarkup.Input.Input
import IconMarkup.Proofs.Files.Components

/-!
# Collected inputs

What is known about the inputs that paths on the command line stand for: each one that is not the
standard input is a file that can be reached by its path (`isFile_of_mem_collectInputs`), and the
name of its output goes down only (`descends_outputName`).
-/

namespace IconMarkup

open Files Files.FileSystem

variable {files : FileSystem}

/-! ### Files below a directory -/

/-- Names on the way to an entry are names of entries. -/
theorem isEntryName_of_append {location : Location} {names : List String}
    (h : (files.get? (location ++ names)).isSome) : ∀ name ∈ names, isEntryName name = true := by
  induction names using List.reverseRecOn with
  | nil => simp
  | append_singleton names last ih =>
    rw [← List.append_assoc] at h
    obtain ⟨entry, hentry⟩ := Option.isSome_iff_exists.mp h
    obtain ⟨habove, hlast⟩ := get?_above hentry
    intro name hname
    rcases List.mem_append.mp hname with hname | hname
    · exact ih (by rw [habove]; rfl) name hname
    · rwa [List.mem_singleton.mp hname]

/-- The names that lead from a directory to a file below it. -/
theorem get?_of_mem_filesBelow {location : Location} {names : List String}
    (h : names ∈ files.filesBelow location) :
    ∃ content, files.get? (location ++ names) = some (.file content) := by
  rw [filesBelow, List.mem_mergeSort, List.mem_filter, List.mem_filterMap] at h
  obtain ⟨⟨⟨place, entry⟩, hmem, hbelow⟩, -⟩ := h
  rcases entry with _ | content
  · cases hbelow
  · simp only [Option.ite_none_right_eq_some, Option.some.injEq] at hbelow
    obtain ⟨hstarts, rfl⟩ := hbelow
    obtain ⟨below, rfl⟩ := List.isPrefixOf_iff_prefix.mp hstarts
    rw [List.drop_left]
    exact ⟨content, get?_of_mem_entries hmem⟩

/-- The path of an entry below a directory leads to it. -/
theorem resolve_foldl_join {path : Path} {location : Location} {names : List String}
    (hpath : files.resolve path = .ok location)
    (h : (files.get? (location ++ names)).isSome) :
    files.resolve (names.foldl (fun path name => path.join ⟨[name]⟩) path) =
      .ok (location ++ names) := by
  induction names generalizing path location with
  | nil => simpa using hpath
  | cons name names ih =>
    have hdirectory : files.get? location = some .directory := get?_of_append (by simp) h
    have hname : isEntryName name = true := isEntryName_of_append h name (List.mem_cons_self ..)
    have hassoc : location ++ name :: names = location ++ [name] ++ names := by simp
    rw [hassoc] at h ⊢
    have hsome : (files.get? (location ++ [name])).isSome := by
      rcases eq_or_ne names [] with rfl | hne
      · simpa using h
      · rw [get?_of_append hne h]
        rfl
    -- the first name leads to a place on the way, where the others go on
    refine ih ?_ h
    refine (resolve_join_eq_ok_iff (resolve_eq_ok_iff.mp hpath).1 (by simp)
      (isAbsolute_singleton name)).mpr ⟨location, hpath, ?_⟩
    rw [followAll_singleton_eq_ok_iff]
    exact follow_name hdirectory hname hsome

theorem isEntryName_of_mem_filesBelow {location : Location} {names : List String}
    (h : names ∈ files.filesBelow location) : ∀ name ∈ names, isEntryName name = true := by
  obtain ⟨content, hcontent⟩ := get?_of_mem_filesBelow h
  exact isEntryName_of_append (by rw [hcontent]; rfl)

/-- Some names lead from a directory to a file. -/
theorem ne_nil_of_mem_filesBelow {location : Location} {names : List String}
    (hdirectory : files.get? location = some .directory) (h : names ∈ files.filesBelow location) :
    names ≠ [] := by
  rintro rfl
  obtain ⟨content, hcontent⟩ := get?_of_mem_filesBelow h
  rw [List.append_nil, hdirectory] at hcontent
  cases hcontent

/-- What begins with a dot is not looked at. -/
theorem not_startsWith_of_mem_filesBelow {location : Location} {names : List String}
    (h : names ∈ files.filesBelow location) : ∀ name ∈ names, name.startsWith "." = false := by
  rw [filesBelow, List.mem_mergeSort, List.mem_filter] at h
  simpa using h.2

/-! ### Documents below a directory -/

/-- The path of a document below a directory is the path of the directory with the names joined to
it that lead there. -/
theorem exists_filesBelow_of_mem_documentsBelow {path file : Path}
    (hpath : files.isDirectory path = true) (h : file ∈ documentsBelow files path) :
    ∃ location names, files.resolve path = .ok location ∧
      files.get? location = some .directory ∧ names ∈ files.filesBelow location ∧
      file = names.foldl (fun path name => path.join ⟨[name]⟩) path := by
  obtain ⟨location, hresolve, hdirectory⟩ := isDirectory_eq_true_iff.mp hpath
  have hwalk := (List.mem_filter.mp h).1
  rw [walk, hresolve] at hwalk
  simp only [hdirectory] at hwalk
  obtain ⟨names, hnames, rfl⟩ := List.mem_map.mp hwalk
  exact ⟨location, names, hresolve, hdirectory, hnames, rfl⟩

/-- The documents below a directory: each one is a file, and its path is the path of the directory
with names joined to it. -/
theorem exists_of_mem_documentsBelow {path file : Path} (hpath : files.isDirectory path = true)
    (h : file ∈ documentsBelow files path) :
    files.isFile file = true ∧ ∃ names : List String, (∀ name ∈ names, isEntryName name = true) ∧
      file = names.foldl (fun path name => path.join ⟨[name]⟩) path := by
  obtain ⟨location, names, hresolve, -, hnames, rfl⟩ :=
    exists_filesBelow_of_mem_documentsBelow hpath h
  obtain ⟨content, hcontent⟩ := get?_of_mem_filesBelow hnames
  have hsome : (files.get? (location ++ names)).isSome := by
    rw [hcontent]
    rfl
  exact ⟨isFile_eq_true_iff.mpr ⟨_, content, resolve_foldl_join hresolve hsome, hcontent⟩,
    names, isEntryName_of_append hsome, rfl⟩

/-! ### Collected inputs -/

/-- Where a collected input comes from: it is the standard input, a file that was named, or a
document below a directory that was named. -/
inductive Collected (files : FileSystem) : Input → Prop
  | stdin : Collected files .stdin
  | named {path : Path} (h : files.isFile path = true) : Collected files (.file path none)
  | below {path file : Path} (hpath : files.isDirectory path = true)
      (h : file ∈ documentsBelow files path) : Collected files (.file file (some path))

theorem collected_of_mem_inputsFrom {forced : Option DocumentFormat} {stdinSeen : Bool}
    {paths : List Path} {inputs : List Input}
    (h : inputsFrom files forced stdinSeen paths = .ok inputs) :
    ∀ input ∈ inputs, Collected files input := by
  induction paths generalizing stdinSeen inputs with
  | nil =>
    cases h
    simp
  | cons path rest ih =>
    rw [inputsFrom] at h
    split at h
    · split at h
      · cases h
      · rcases hrest : inputsFrom files forced true rest with _ | more <;> rw [hrest] at h <;>
          cases h
        exact List.forall_mem_cons.mpr ⟨.stdin, ih hrest⟩
    split at h
    · rename_i hfile
      split at h
      · cases h
      · rcases hrest : inputsFrom files forced stdinSeen rest with _ | more <;> rw [hrest] at h <;>
          cases h
        exact List.forall_mem_cons.mpr ⟨.named hfile, ih hrest⟩
    split at h
    · rename_i hdirectory
      rcases hrest : inputsFrom files forced stdinSeen rest with _ | more <;> rw [hrest] at h <;>
        cases h
      refine List.forall_mem_append.mpr ⟨fun input hinput => ?_, ih hrest⟩
      obtain ⟨file, hfile, rfl⟩ := List.mem_map.mp hinput
      exact .below hdirectory hfile
    · cases h

/-- All inputs that paths stand for come from one of these places. -/
theorem collected_of_mem {forced : Option DocumentFormat} {paths : List Path}
    {inputs : List Input} (h : collectInputs files forced paths = .ok inputs) :
    ∀ input ∈ inputs, Collected files input := by
  rw [collectInputs] at h
  split at h
  · cases h
    simpa using Collected.stdin
  · exact collected_of_mem_inputsFrom h

/-- A collected input can be reached by its path. -/
theorem Collected.isFile {path : Path} {root : Option Path}
    (h : Collected files (.file path root)) : files.isFile path = true := by
  cases h with
  | named h => exact h
  | below hpath h => exact (exists_of_mem_documentsBelow hpath h).1

/-- The name of the output of a collected input goes down only. -/
theorem Collected.descends_outputName {input : Input} (h : Collected files input) :
    input.outputName.Descends := by
  have hnamed : ∀ {path : Path}, files.isFile path = true →
      ∃ name, path.fileName? = some name ∧ (⟨[name]⟩ : Path).Inner := fun hfile => by
    obtain ⟨name, hname, hentry⟩ := exists_fileName?_of_isFile hfile
    exact ⟨name, hname, inner_of_isEntryName hentry⟩
  cases h with
  | stdin => exact ⟨by simp [Input.outputName], isAbsolute_singleton _, by simp [Input.outputName]⟩
  | @named path h =>
    obtain ⟨name, hname, hinner⟩ := hnamed h
    simpa [Input.outputName, hname] using hinner.descends_withExtension "html"
  | @below path file hpath h =>
    obtain ⟨hfile, names, hnames, heq⟩ := exists_of_mem_documentsBelow hpath h
    obtain ⟨location, hresolve, -⟩ := isDirectory_eq_true_iff.mp hpath
    have hempty := (resolve_eq_ok_iff.mp hresolve).1
    -- without a path from the directory, the file name alone names the output
    rcases hrel : file.stripPrefix? path with _ | rel
    · obtain ⟨name, hname, hinner⟩ := hnamed hfile
      simpa [Input.outputName, hrel, hname] using hinner.descends_withExtension "html"
    · have hcomponents : file.components = path.components ++ names.map .name := by
        rw [heq, components_foldl_join hempty hnames]
      have hinner := inner_of_stripPrefix? hempty hcomponents hrel
      simpa [Input.outputName, hrel] using hinner.descends_withExtension "html"

end IconMarkup
