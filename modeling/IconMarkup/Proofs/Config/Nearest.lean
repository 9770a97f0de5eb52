import IconMarkup.Config.Location
import IconMarkup.Proofs.Files.Resolution

/-!
# The nearest settings file

Where a path to settings leads. A relative path is tried in a directory, in the one above, and so on
up to the root (`Climbs`), and the first regular file is taken; directories of that name are passed
over. An absolute path leads to the file that it names, and it is also taken if it names a
directory. So the nearest file is found exactly if the path is not an absolute one of a directory
(`isNearest_findAbove_iff`): such a directory cannot be read, where otherwise a path that leads to
no file is one that is not found.
-/

namespace IconMarkup.Config

open Files Files.FileSystem

variable {files : FileSystem} {start name path directory parent : Path} {passed : List Path}

/-! ### The way up -/

/-- Whether the way up from a path passes some paths and then comes to a directory. -/
inductive Climbs : Path → List Path → Path → Prop
  | here (path : Path) : Climbs path [] path
  | up {path parent directory : Path} {passed : List Path} (hparent : path.parent? = some parent)
    (h : Climbs parent passed directory) : Climbs path (path :: passed) directory

private theorem ancestors_of_none (h : path.parent? = none) : path.ancestors = [path] := by
  rw [Path.ancestors]
  split
  · rfl
  · rename_i hparent
    rw [h] at hparent
    cases hparent

private theorem ancestors_of_some (h : path.parent? = some parent) :
    path.ancestors = path :: parent.ancestors := by
  rw [Path.ancestors]
  split
  · rename_i hnone
    rw [h] at hnone
    cases hnone
  · rename_i hparent
    rw [h, Option.some_inj] at hparent
    rw [hparent]

/-- The paths on the way up, in order. -/
theorem climbs_iff : Climbs path passed directory ↔
    ∃ above, path.ancestors = passed ++ directory :: above := by
  constructor
  · intro h
    induction h with
    | here path => exact ⟨path.ancestors.tail, by rw [Path.ancestors]; rfl⟩
    | up hparent _ ih =>
      obtain ⟨above, habove⟩ := ih
      exact ⟨above, by rw [ancestors_of_some hparent, habove, List.cons_append]⟩
  · rintro ⟨above, h⟩
    induction passed generalizing path with
    | nil =>
      rw [Path.ancestors, List.nil_append, List.cons.injEq] at h
      exact h.1 ▸ .here path
    | cons first passed ih =>
      rcases hparent : path.parent? with _ | parent
      · rw [ancestors_of_none hparent] at h
        simp at h
      · rw [ancestors_of_some hparent, List.cons_append, List.cons.injEq] at h
        exact h.1 ▸ .up hparent (ih h.2)

private theorem head?_of_isAbsolute (h : path.isAbsolute = true) : path.head? = some .root := by
  rcases spelled path with ⟨-, hhead, -⟩ | ⟨-, -, hrelative⟩ | ⟨-, -, hrelative⟩
  · exact hhead
  · simp [h] at hrelative
  · simp [h] at hrelative

private theorem isAbsolute_of_parent? (h : path.isAbsolute = true)
    (hparent : path.parent? = some parent) :
    parent.isAbsolute = true := by
  rw [Path.parent?, head?_of_isAbsolute h] at hparent
  split at hparent
  · simp at hparent
  · cases hparent
    rcases Path.trimEnd (Path.trimEnd path.body).dropLast with _ | ⟨piece, pieces⟩ <;> rfl

/-- An absolute path without parent is the root. -/
private theorem components_of_parent?_eq_none (h : path.isAbsolute = true)
    (hnone : path.parent? = none) :
    path.components = [.root] := by
  rw [Path.parent?] at hnone
  split at hnone
  · rename_i hbody
    have hfillers : ∀ piece ∈ path.body, isFiller piece = true := by
      rw [Path.trimEnd, List.reverse_eq_nil_iff, List.dropWhile_eq_nil_iff] at hbody
      simpa using hbody
    have hnames : path.body.filterMap Component.ofPiece? = [] :=
      List.filterMap_eq_nil_iff.mpr fun piece hpiece => if_pos (hfillers piece hpiece)
    rw [Path.components, head?_of_isAbsolute h, hnames]
    rfl
  · cases hnone

/-- The way up from an absolute path ends at the root. -/
theorem exists_climbs_root (h : path.isAbsolute = true) : ∃ passed root,
    Climbs path passed root ∧ root.parent? = none ∧ root.components = [.root] := by
  induction hdepth : path.depth using Nat.strongRecOn generalizing path with
  | ind depth ih =>
    rcases hparent : path.parent? with _ | parent
    · exact ⟨[], path, .here path, hparent, components_of_parent?_eq_none h hparent⟩
    · have hlt : parent.depth < depth := hdepth ▸ Path.depth_lt_of_parent? hparent
      obtain ⟨passed, root, hclimbs, htop, hroot⟩ :=
        ih parent.depth hlt (isAbsolute_of_parent? h hparent) rfl
      exact ⟨path :: passed, root, .up hparent hclimbs, htop, hroot⟩

/-! ### What is found -/

/-- Whether a name leads to no file, neither in a directory nor above it. -/
def NoFile (files : FileSystem) (start name : Path) : Prop :=
  ∀ passed directory, Climbs start passed directory → files.isFile (directory.join name) = false

/-- Whether what is found for a name is the nearest file: the name itself if it is absolute, or else
the first file of that name on the way up. Nothing is found only if there is no file. -/
inductive IsNearest (files : FileSystem) (start name : Path) : Option Path → Prop
  | itself (habsolute : name.isAbsolute = true) (hfile : files.isFile name = true) :
    IsNearest files start name (some name)
  | nearest {passed : List Path} {directory : Path} (hrelative : name.isAbsolute = false)
    (hclimbs : Climbs start passed directory)
    (hpassed : ∀ path ∈ passed, files.isFile (path.join name) = false)
    (hfile : files.isFile (directory.join name) = true) :
    IsNearest files start name (some (directory.join name))
  | nothing (h : NoFile files start name) : IsNearest files start name none

private theorem join_of_isAbsolute (h : name.isAbsolute = true) (path : Path) :
    path.join name = name := by
  rw [Path.join, h, Bool.true_or, if_pos rfl]

private theorem findAbove_of_isAbsolute (h : name.isAbsolute = true) :
    findAbove files start name = if files.has name then some name else none := by
  rw [findAbove, if_pos h]

private theorem findAbove_of_relative (h : name.isAbsolute = false) :
    findAbove files start name =
      (start.ancestors.map fun directory => directory.join name).find? files.isFile := by
  rw [findAbove, if_neg (by simp [h])]

private theorem has_eq (files : FileSystem) (path : Path) :
    files.has path = (files.isFile path || files.isDirectory path) := by
  rw [FileSystem.has, isFile, isDirectory]
  rcases files.entry? path with _ | _ | content <;> rfl

/-- A name that is not absolute leads to the nearest file. -/
theorem isNearest_findAbove_of_relative (h : name.isAbsolute = false) :
    IsNearest files start name (findAbove files start name) := by
  rcases hfind : findAbove files start name with _ | found
  · refine .nothing fun passed directory hclimbs => ?_
    obtain ⟨above, habove⟩ := climbs_iff.mp hclimbs
    have hmem : directory ∈ start.ancestors := by simp [habove]
    rw [findAbove_of_relative h, List.find?_eq_none] at hfind
    simpa using hfind _ (List.mem_map_of_mem hmem)
  · rw [findAbove_of_relative h] at hfind
    obtain ⟨hfile, before, after, hpaths, hbefore⟩ := List.find?_eq_some_iff_append.mp hfind
    obtain ⟨passed, rest, hsplit, rfl, hrest⟩ := List.map_eq_append_iff.mp hpaths
    obtain ⟨directory, above, rfl, rfl, -⟩ := List.map_eq_cons_iff.mp hrest
    refine .nearest h (climbs_iff.mpr ⟨above, hsplit⟩) (fun path hpath => ?_) hfile
    simpa using hbefore _ (List.mem_map_of_mem hpath)

private theorem IsNearest.isFile {found : Path} (h : IsNearest files start name (some found)) :
    files.isFile found = true := by
  cases h with
  | itself _ hfile => exact hfile
  | nearest _ _ _ hfile => exact hfile

/-- An absolute name leads to the file, unless it is that of a directory. -/
theorem isNearest_findAbove_of_isAbsolute (h : name.isAbsolute = true) :
    IsNearest files start name (findAbove files start name) ↔ files.isDirectory name = false := by
  rw [findAbove_of_isAbsolute h, has_eq]
  rcases hdirectory : files.isDirectory name with _ | _
  · refine iff_of_true ?_ rfl
    rcases hfile : files.isFile name with _ | _
    · refine .nothing fun passed directory _ => ?_
      rw [join_of_isAbsolute h, hfile]
    · exact .itself h hfile
  · -- the directory is found, and it is no file
    have hfile := isFile_of_isDirectory hdirectory
    refine iff_of_false (fun hnearest => ?_) (by simp)
    rw [Bool.or_true, if_pos rfl] at hnearest
    have hfound := hnearest.isFile
    rw [hfile] at hfound
    cases hfound

/-- The nearest file is found, unless the name is absolute and that of a directory. -/
theorem isNearest_findAbove_iff (files : FileSystem) (start name : Path) :
    IsNearest files start name (findAbove files start name) ↔
      ¬ (name.isAbsolute = true ∧ files.isDirectory name = true) := by
  rcases habsolute : name.isAbsolute with _ | _
  · exact iff_of_true (isNearest_findAbove_of_relative habsolute) (by simp)
  · simpa using isNearest_findAbove_of_isAbsolute habsolute

/-- Where there is no file, none is the nearest. -/
private theorem IsNearest.eq_none {found? : Option Path} (h : IsNearest files start name found?)
    (hno : NoFile files start name) : found? = none := by
  cases h with
  | itself habsolute hfile =>
    have hstart := hno [] start (.here start)
    rw [join_of_isAbsolute habsolute, hfile] at hstart
    cases hstart
  | nearest _ hclimbs _ hfile =>
    rw [hno _ _ hclimbs] at hfile
    cases hfile
  | nothing => rfl

/-! ### What is loaded -/

private theorem readText_of_isDirectory (h : files.isDirectory path = true) :
    files.readText path = .error .isDirectory := by
  obtain ⟨place, hresolve, hdirectory⟩ := isDirectory_eq_true_iff.mp h
  rw [FileSystem.readText, hresolve]
  simp only [bind, Except.bind, hdirectory]

/-- A directory that is taken for the settings file cannot be read. -/
theorem load_of_isDirectory (habsolute : name.isAbsolute = true)
    (hdirectory : files.isDirectory name = true) (required : Bool) :
    load files name required = .error (.unreadable name .isDirectory) := by
  have hfind : findFrom files files.workingDirectory name = some name := by
    rw [findFrom, findAbove_of_isAbsolute habsolute, has_eq, hdirectory, Bool.or_true, if_pos rfl]
  rw [load, hfind]
  dsimp only
  rw [loadFile, readText_of_isDirectory hdirectory]

/-- A name that leads to no file is not found, unless it is absolute and that of a directory. -/
private theorem load_of_noFile_iff (hno : NoFile files (absolutePath files.workingDirectory) name) :
    (∀ required, load files name required =
        if required then .error (.notFound name) else .ok { settings := {} }) ↔
      ¬ (name.isAbsolute = true ∧ files.isDirectory name = true) := by
  constructor
  · rintro hload ⟨habsolute, hdirectory⟩
    have hdefault := hload false
    rw [load_of_isDirectory habsolute hdirectory] at hdefault
    cases hdefault
  · intro hname required
    have hnearest := (isNearest_findAbove_iff files (absolutePath files.workingDirectory) name).mpr
      hname
    rw [load, findFrom, hnearest.eq_none hno]

/-- The search finds the nearest file exactly if the name is not an absolute one of a directory. On
the way up from an absolute path it comes to the root. Where a name leads to no file, loading tells
that it is not found, or gives the defaults if it is not required, with the same exception: a
directory that is taken for the file cannot be read. -/
theorem findAbove_nearest (files : FileSystem) (start name : Path) :
    (IsNearest files start name (findAbove files start name) ↔
        ¬ (name.isAbsolute = true ∧ files.isDirectory name = true)) ∧
      (start.isAbsolute = true → ∃ passed root, Climbs start passed root ∧
        root.parent? = none ∧ root.components = [.root]) ∧
      (NoFile files (absolutePath files.workingDirectory) name →
        ((∀ required, load files name required =
            if required then .error (.notFound name) else .ok { settings := {} }) ↔
          ¬ (name.isAbsolute = true ∧ files.isDirectory name = true))) ∧
      (name.isAbsolute = true → files.isDirectory name = true → ∀ required,
        load files name required = .error (.unreadable name .isDirectory)) :=
  ⟨isNearest_findAbove_iff files start name, exists_climbs_root, load_of_noFile_iff,
    load_of_isDirectory⟩

/-- A directory and no files. -/
def settingsFolder : FileSystem :=
  ({} : FileSystem).put ["settings"] .directory

/-- The absolute path of a directory is found, though no file is there, and then it cannot be
read. -/
theorem not_findAbove_nearest_folder :
    findAbove settingsFolder ⟨["", ""]⟩ ⟨["", "settings"]⟩ = some ⟨["", "settings"]⟩ ∧
      ¬ IsNearest settingsFolder ⟨["", ""]⟩ ⟨["", "settings"]⟩
        (findAbove settingsFolder ⟨["", ""]⟩ ⟨["", "settings"]⟩) ∧
      NoFile settingsFolder (absolutePath settingsFolder.workingDirectory) ⟨["", "settings"]⟩ ∧
      (∀ required, load settingsFolder ⟨["", "settings"]⟩ required =
        .error (.unreadable ⟨["", "settings"]⟩ .isDirectory)) ∧
      ¬ ∀ required, load settingsFolder ⟨["", "settings"]⟩ required =
        if required then .error (.notFound ⟨["", "settings"]⟩) else .ok { settings := {} } := by
  have habsolute : (⟨["", "settings"]⟩ : Path).isAbsolute = true := by decide
  have hdirectory : settingsFolder.isDirectory ⟨["", "settings"]⟩ = true := by decide +kernel
  have hno : NoFile settingsFolder (absolutePath settingsFolder.workingDirectory)
      ⟨["", "settings"]⟩ := by
    intro passed directory _
    rw [join_of_isAbsolute habsolute]
    exact isFile_of_isDirectory hdirectory
  obtain ⟨hnearest, -, hload, hunreadable⟩ :=
    findAbove_nearest settingsFolder ⟨["", ""]⟩ ⟨["", "settings"]⟩
  exact ⟨by decide +kernel, fun h => hnearest.mp h ⟨habsolute, hdirectory⟩, hno,
    hunreadable habsolute hdirectory, fun h => (hload hno).mp h ⟨habsolute, hdirectory⟩⟩

end IconMarkup.Config
