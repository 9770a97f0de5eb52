import IconMarkup.Proofs.Files.Components

/-!
# File systems that grow

What the operations on files leave as it is. A file system `Grows` into another one if directories
stay directories and files stay files; then every path that leads somewhere leads to the same place
in both (`Grows.resolve`). All operations make a file system grow, and making directories does not
touch the content of any file (`extends_makeDirectories`). Writing a file changes what stands at one
place: where its path leads, or at the place that it names, where nothing stood
(`writeFile_cases`).
-/

namespace IconMarkup.Files.FileSystem

/-- Whether directories stay directories and files stay files. -/
structure Grows (before after : FileSystem) : Prop where
  workingDirectory : after.workingDirectory = before.workingDirectory
  directory : ∀ {location}, before.get? location = some .directory →
    after.get? location = some .directory
  file : ∀ {location content}, before.get? location = some (.file content) →
    ∃ content', after.get? location = some (.file content')

/-- Whether all entries stay what they are. -/
structure Extends (before after : FileSystem) : Prop where
  workingDirectory : after.workingDirectory = before.workingDirectory
  entry : ∀ {location entry}, before.get? location = some entry →
    after.get? location = some entry

theorem Grows.refl (files : FileSystem) : files.Grows files :=
  ⟨rfl, id, fun h => ⟨_, h⟩⟩

theorem Grows.trans {first second third : FileSystem} (h : first.Grows second)
    (h' : second.Grows third) : first.Grows third := by
  refine ⟨h'.workingDirectory.trans h.workingDirectory, fun hd => h'.directory (h.directory hd),
    fun hf => ?_⟩
  obtain ⟨content, hcontent⟩ := h.file hf
  exact h'.file hcontent

theorem Extends.refl (files : FileSystem) : files.Extends files :=
  ⟨rfl, id⟩

theorem Extends.trans {first second third : FileSystem} (h : first.Extends second)
    (h' : second.Extends third) : first.Extends third :=
  ⟨h'.workingDirectory.trans h.workingDirectory, fun he => h'.entry (h.entry he)⟩

theorem Extends.grows {before after : FileSystem} (h : before.Extends after) :
    before.Grows after :=
  ⟨h.workingDirectory, h.entry, fun hf => ⟨_, h.entry hf⟩⟩

private theorem Grows.isSome {before after : FileSystem} (h : before.Grows after)
    {location : Location}
    (hsome : (before.get? location).isSome) : (after.get? location).isSome := by
  rcases hold : before.get? location with _ | _ | content
  · rw [hold] at hsome
    cases hsome
  · rw [h.directory hold]
    rfl
  · obtain ⟨content', hcontent⟩ := h.file hold
    rw [hcontent]
    rfl

/-! ### Paths -/

private theorem Grows.follow {before after : FileSystem} (h : before.Grows after)
    {location place : Location} {piece : String}
    (hfollow : before.follow location piece = .ok place) :
    after.follow location piece = .ok place := by
  obtain ⟨hdirectory, hcases⟩ := follow_cases hfollow
  have hdirectory' := h.directory hdirectory
  rcases hcases with ⟨hfiller, rfl⟩ | ⟨rfl, rfl⟩ | ⟨hname, rfl, hsome⟩
  · exact follow_filler hdirectory' hfiller
  · exact follow_above hdirectory'
  · exact follow_name hdirectory' hname (h.isSome hsome)

/-- What a path leads to in the smaller file system it leads to in the larger one. -/
theorem Grows.followAll {before after : FileSystem} (h : before.Grows after)
    {location place : Location} {pieces : List String}
    (hfollow : before.followAll location pieces = .ok place) :
    after.followAll location pieces = .ok place := by
  induction pieces generalizing location with
  | nil => exact hfollow
  | cons piece pieces ih =>
    obtain ⟨next, hnext, hrest⟩ := followAll_cons_eq_ok_iff.mp hfollow
    exact followAll_cons_eq_ok_iff.mpr ⟨next, h.follow hnext, ih hrest⟩

/-- A path that leads somewhere still leads there after growth. -/
theorem Grows.resolve {before after : FileSystem} (h : before.Grows after) {path : Path}
    {place : Location} (hresolve : before.resolve path = .ok place) :
    after.resolve path = .ok place := by
  rw [resolve_eq_ok_iff] at hresolve ⊢
  rw [origin, h.workingDirectory]
  exact ⟨hresolve.1, h.followAll hresolve.2⟩

/-- Names that lead to a file after growth led there before, if the file was there. New directories
open no new way to it, as long as no `..` leads out of them again. -/
private theorem Grows.followAll_of_file {before after : FileSystem} (h : before.Grows after)
    {location place : Location} {pieces : List String} {content : ByteArray}
    (hno : ".." ∉ pieces) (hfollow : after.followAll location pieces = .ok place)
    (hfile : before.get? place = some (.file content)) :
    before.followAll location pieces = .ok place := by
  induction pieces generalizing location with
  | nil => exact hfollow
  | cons piece pieces ih =>
    obtain ⟨next, hnext, hrest⟩ := followAll_cons_eq_ok_iff.mp hfollow
    obtain ⟨hdirectory, hcases⟩ := follow_cases hnext
    obtain ⟨belowAll, hplace⟩ := exists_of_followAll hno hfollow
    rw [List.mem_cons, not_or] at hno
    refine followAll_cons_eq_ok_iff.mpr ⟨next, ?_, ih hno.2 hrest⟩
    -- the file stands below the place that is left, which was a directory therefore
    have hsome : (before.get? place).isSome := by
      rw [hfile]
      rfl
    have hbefore : before.get? location = some .directory := by
      rcases eq_or_ne belowAll [] with rfl | hne
      · obtain ⟨content', hafter⟩ := h.file hfile
        rw [hplace, List.append_nil, hdirectory] at hafter
        cases hafter
      · exact get?_of_append hne (hplace ▸ hsome)
    obtain ⟨below, hbelow⟩ := exists_of_followAll hno.2 hrest
    rcases hcases with ⟨hfiller, rfl⟩ | ⟨rfl, -⟩ | ⟨hname, rfl, -⟩
    · exact follow_filler hbefore hfiller
    · exact absurd rfl hno.1
    · refine follow_name hbefore hname ?_
      rcases eq_or_ne below [] with rfl | hne
      · rw [List.append_nil] at hbelow
        rwa [← hbelow]
      · rw [get?_of_append hne (hbelow ▸ hsome)]
        rfl

/-- A relative path that goes down only, and leads from a directory to a file after growth, led
there before if the file was there. -/
theorem Grows.followAll_of_descends {before after : FileSystem} (h : before.Grows after)
    {location place : Location} {path : Path} {content : ByteArray} (hpath : path.Descends)
    (hfollow : after.followAll location path.pieces = .ok place)
    (hfile : before.get? place = some (.file content)) :
    before.followAll location path.pieces = .ok place := by
  obtain ⟨content', hafter⟩ := h.file hfile
  obtain ⟨init, name, -, hpieces, hname, -⟩ :=
    exists_of_followAll_file hpath.nonempty hfollow hafter
  have hno := hpath.noAbove
  rw [hpieces, List.dropLast_concat] at hno
  refine h.followAll_of_file ?_ hfollow hfile
  rw [hpieces, List.mem_append, List.mem_singleton, not_or]
  exact ⟨hno, Ne.symm (isEntryName_eq_true_iff.mp hname).2⟩

/-! ### Operations -/

/-- Putting an entry keeps directories and files what they are. -/
theorem grows_put (files : FileSystem) (location : Location) (entry : Entry) :
    files.Grows (files.put location entry) := by
  rcases hadmits : files.admits location entry with _ | _
  · rw [put, dif_neg (by simp [hadmits])]
    exact .refl files
  · refine ⟨put_workingDirectory .., fun {other} h => ?_, fun {other content} h => ?_⟩
    · rw [get?_put_of_ne, h]
      rintro rfl
      exact get?_ne_directory_of_admits hadmits h
    · rcases eq_or_ne other location with rfl | hne
      · rw [get?_put_self hadmits]
        cases entry with
        | directory => simp [admits, h] at hadmits
        | file content' => exact ⟨content', rfl⟩
      · exact ⟨content, by rw [get?_put_of_ne entry hne, h]⟩

/-- What is put at a free place changes no other entry. -/
theorem extends_put {files : FileSystem} {location : Location} (entry : Entry)
    (h : files.get? location = none) : files.Extends (files.put location entry) := by
  refine ⟨put_workingDirectory .., fun {other old} hold => ?_⟩
  rw [get?_put_of_ne, hold]
  rintro rfl
  rw [h] at hold
  cases hold

/-- Where a new entry would stand: its directory is there, and its name can be that of an entry. -/
private theorem newEntry_eq_ok {files : FileSystem} {path : Path} {above : Location} {name : String}
    (h : files.newEntry path = .ok (above, name)) :
    files.followAll (files.origin path) path.unslashed.dropLast = .ok above ∧
      files.get? above = some .directory ∧ path.unslashed.getLast? = some name ∧
      isEntryName name = true := by
  rw [newEntry] at h
  rcases habove : files.followAll (files.origin path) path.unslashed.dropLast with fault | above'
  · rw [habove] at h
    cases h
  · rw [habove] at h
    simp only [bind, Except.bind] at h
    split at h
    · rename_i hdirectory
      split at h
      · rename_i name' hlast
        split at h
        · rename_i hname
          cases h
          exact ⟨rfl, hdirectory, hlast, hname⟩
        · cases h
      · cases h
    · cases h
    · cases h

private theorem admits_of_newEntry {files : FileSystem} {path : Path} {above : Location}
    {name : String}
    (h : files.newEntry path = .ok (above, name)) (hfree : files.get? (above ++ [name]) = none)
    (entry : Entry) : files.admits (above ++ [name]) entry = true := by
  obtain ⟨-, hdirectory, -, hname⟩ := newEntry_eq_ok h
  simp [admits, hfree, hdirectory, hname]

/-- A directory is made at a free place. -/
private theorem makeDirectory_eq_ok {files files' : FileSystem} {path : Path}
    (h : files.makeDirectory path = .ok files') :
    ∃ above name, files.newEntry path = .ok (above, name) ∧
      files.get? (above ++ [name]) = none ∧ files' = files.put (above ++ [name]) .directory := by
  rw [makeDirectory] at h
  rcases hentry : files.newEntry path with fault | ⟨above, name⟩
  · rw [hentry] at h
    cases h
  · rw [hentry] at h
    simp only [bind, Except.bind] at h
    split at h
    · cases h
    · rename_i hfree
      cases h
      exact ⟨above, name, rfl, by simpa using hfree, rfl⟩

/-- Making a directory changes no entry. -/
theorem extends_makeDirectory {files files' : FileSystem} {path : Path}
    (h : files.makeDirectory path = .ok files') : files.Extends files' := by
  obtain ⟨above, name, -, hfree, rfl⟩ := makeDirectory_eq_ok h
  exact extends_put .directory hfree

private theorem extends_finish {files : FileSystem} {path : Path}
    {outcome : Except Fault FileSystem}
    (h : ∀ files', outcome = .ok files' → files.Extends files') :
    files.Extends (makeDirectories.finish files path outcome).1 := by
  rcases outcome with fault | files'
  · exact .refl files
  · exact h files' rfl

/-- Making directories changes no entry that was there, whether it succeeds or not. -/
theorem extends_makeDirectories (files : FileSystem) (path : Path) :
    files.Extends (files.makeDirectories path).1 := by
  rw [makeDirectories]
  generalize path.pieces.length + 1 = fuel
  induction fuel generalizing path with
  | zero => exact .refl files
  | succ fuel ih =>
    rw [makeDirectories.go]
    split
    · exact .refl files
    · split
      · rename_i hmade
        exact extends_makeDirectory hmade
      · split
        · exact .refl files
        · -- first the directories above, then this one
          rename_i parent _
          have hparent := ih parent
          split <;> rename_i hgo <;> rw [hgo] at hparent
          · exact hparent
          · exact hparent.trans (extends_finish fun _ => extends_makeDirectory)
      · exact extends_finish fun _ h => by cases h

/-- Writing puts the file where its path leads, or at the free place that the path names. -/
theorem writeFile_cases {files files' : FileSystem} {path : Path} {content : ByteArray}
    (h : files.writeFile path content = .ok files') :
    (∃ place, files.resolve path = .ok place ∧ files' = files.put place (.file content)) ∨
      ∃ above name, files.newEntry path = .ok (above, name) ∧
        files.get? (above ++ [name]) = none ∧
        files' = files.put (above ++ [name]) (.file content) := by
  rw [writeFile] at h
  split at h
  · rename_i place hresolve
    split at h
    · cases h
    · cases h
      exact .inl ⟨place, hresolve, rfl⟩
  · split at h
    · cases h
    · rcases hentry : files.newEntry path with fault | ⟨above, name⟩
      · rw [hentry] at h
        cases h
      · rw [hentry] at h
        simp only [bind, Except.bind] at h
        split at h
        · cases h
        · rename_i hfree
          cases h
          rw [Bool.or_eq_true, not_or] at hfree
          exact .inr ⟨above, name, rfl, by simpa using hfree.1, rfl⟩
  · cases h

/-- A file is written where the path leads, or at a place where nothing stood. -/
theorem writeFile_eq_ok {files files' : FileSystem} {path : Path} {content : ByteArray}
    (h : files.writeFile path content = .ok files') :
    ∃ place, files' = files.put place (.file content) ∧
      (files.resolve path = .ok place ∨ files.get? place = none) := by
  rcases writeFile_cases h with ⟨place, hresolve, rfl⟩ | ⟨above, name, -, hfree, rfl⟩
  · exact ⟨place, rfl, .inl hresolve⟩
  · exact ⟨above ++ [name], rfl, .inr hfree⟩

/-- Writing a file keeps directories and files what they are. -/
theorem grows_writeFile {files files' : FileSystem} {path : Path} {content : ByteArray}
    (h : files.writeFile path content = .ok files') : files.Grows files' := by
  obtain ⟨place, rfl, -⟩ := writeFile_eq_ok h
  exact grows_put ..

/-- A file that is there is written over. -/
theorem writeFile_of_file {files : FileSystem} {path : Path} {place : Location}
    {old : ByteArray} (content : ByteArray) (h : files.resolve path = .ok place)
    (hfile : files.get? place = some (.file old)) :
    files.writeFile path content = .ok (files.put place (.file content)) ∧
      (files.put place (.file content)).get? place = some (.file content) := by
  refine ⟨?_, get?_put_self (by simp [admits, hfile])⟩
  rw [writeFile, h]
  simp only [hfile]

/-! ### Directories that are there -/

private theorem makeDirectory_of_isDirectory {files : FileSystem} {path : Path}
    (h : files.isDirectory path = true) : files.makeDirectory path = .error .taken := by
  obtain ⟨place, hresolve, hdirectory⟩ := isDirectory_eq_true_iff.mp h
  have hfollow : files.followAll (files.origin path) path.unslashed = .ok place :=
    followAll_rdropWhile isFiller_of_beq_empty (resolve_eq_ok_iff.mp hresolve).2
  rcases List.eq_nil_or_concat' path.unslashed with hnil | ⟨before, last, hconcat⟩
  · rw [hnil] at hfollow
    cases hfollow
    simp [makeDirectory, newEntry, hnil, hdirectory, bind, Except.bind]
  · rw [hconcat] at hfollow
    obtain ⟨above, habove, hlast⟩ := followAll_append_eq_ok_iff.mp hfollow
    rw [followAll_singleton_eq_ok_iff] at hlast
    have hentry : files.newEntry path =
        if isEntryName last then .ok (above, last) else .error .taken := by
      simp [newEntry, hconcat, habove, (follow_cases hlast).1, bind, Except.bind]
    rw [makeDirectory, hentry]
    split
    · rename_i hname
      obtain ⟨rfl, hsome⟩ := follow_of_isEntryName hlast hname
      simp [hsome, bind, Except.bind]
    · rfl

/-- A directory that is there is not made again. -/
theorem go_of_isDirectory {files : FileSystem} {path : Path} (fuel : Nat)
    (h : files.isDirectory path = true) :
    makeDirectories.go (fuel + 1) files path = (files, none) := by
  obtain ⟨place, hresolve, -⟩ := isDirectory_eq_true_iff.mp h
  rw [makeDirectories.go, (resolve_eq_ok_iff.mp hresolve).1, makeDirectory_of_isDirectory h]
  simp [makeDirectories.finish, h]

theorem makeDirectories_of_isDirectory {files : FileSystem} {path : Path}
    (h : files.isDirectory path = true) : files.makeDirectories path = (files, none) :=
  go_of_isDirectory _ h

/-- The directory above a file is not made again. -/
theorem makeDirectories_parent? {files : FileSystem} {path : Path} {place : Location}
    {content : ByteArray} (h : files.resolve path = .ok place)
    (hfile : files.get? place = some (.file content)) :
    files.makeDirectories (path.parent?.getD .empty) = (files, none) := by
  rcases resolve_parent? h hfile with hempty | hdirectory
  · rw [makeDirectories, makeDirectories.go, if_pos hempty]
  · exact makeDirectories_of_isDirectory (isDirectory_eq_true_iff.mpr hdirectory)

/-- A directory that has been made is there. -/
theorem isDirectory_of_makeDirectory {files files' : FileSystem} {path : Path}
    (h : files.makeDirectory path = .ok files') : files'.isDirectory path = true := by
  obtain ⟨above, name, hentry, hfree, rfl⟩ := makeDirectory_eq_ok h
  obtain ⟨habove, hdirectory, hlast, hname⟩ := newEntry_eq_ok hentry
  have hgrows := grows_put files (above ++ [name]) .directory
  have hmade := get?_put_self (admits_of_newEntry hentry hfree .directory)
  have hunslashed : path.unslashed = path.unslashed.dropLast ++ [name] := by
    obtain ⟨before, hbefore⟩ := List.getLast?_eq_some_iff.mp hlast
    rw [hbefore, List.dropLast_concat]
  have hempty : path.isEmpty = false := by
    rw [isEmpty_eq_false_iff]
    refine ⟨fun hnil => ?_, fun hnil => ?_⟩ <;> simp [Path.unslashed, hnil] at hlast
  refine isDirectory_eq_true_iff.mpr ⟨above ++ [name], resolve_eq_ok_iff.mpr ⟨hempty, ?_⟩, hmade⟩
  refine followAll_of_rdropWhile isFiller_of_beq_empty hmade ?_
  rw [← show path.unslashed = path.pieces.rdropWhile (· == "") from rfl, hunslashed, origin,
    hgrows.workingDirectory]
  exact followAll_append_eq_ok_iff.mpr ⟨above, hgrows.followAll habove,
    followAll_singleton_eq_ok_iff.mpr
      (follow_name (hgrows.directory hdirectory) hname (by rw [hmade]; rfl))⟩

private theorem isDirectory_of_finish {files files' : FileSystem} {path : Path}
    {outcome : Except Fault FileSystem}
    (hmade : ∀ files', outcome = .ok files' → files'.isDirectory path = true)
    (h : makeDirectories.finish files path outcome = (files', none)) :
    files'.isDirectory path = true := by
  rcases outcome with fault | made
  · rw [makeDirectories.finish, Prod.mk.injEq] at h
    obtain ⟨rfl, hfault⟩ := h
    split at hfault
    · assumption
    · cases hfault
  · cases h
    exact hmade _ rfl

/-- Where directories have been made, the path leads to one, unless it spells nothing. -/
theorem isDirectory_of_makeDirectories {files files' : FileSystem} {path : Path}
    (h : files.makeDirectories path = (files', none)) :
    path.isEmpty = true ∨ files'.isDirectory path = true := by
  rw [makeDirectories, makeDirectories.go] at h
  split at h
  · rename_i hempty
    exact .inl hempty
  · right
    split at h
    · rename_i hmade
      cases h
      exact isDirectory_of_makeDirectory hmade
    · split at h
      · cases h
      · split at h
        · cases h
        · exact isDirectory_of_finish (fun _ => isDirectory_of_makeDirectory) h
    · exact isDirectory_of_finish (fun _ hok => by cases hok) h

end IconMarkup.Files.FileSystem
