import IconMarkup.Files.Path

/-!
# File systems

A file system as a value: which names below the root are directories and which are files with which
content, and a working directory. Paths are followed from piece to piece, so that every piece but
the last has to be a directory, and `..` leads to the directory above.
-/

namespace IconMarkup.Files

/-! ### Entries and faults -/

/-- A place in a file system: the names from the root on. -/
abbrev Location := List String

/-- What stands at a place. -/
inductive Entry where
  /-- A directory. -/
  | directory
  /-- A file with its content. -/
  | file (content : ByteArray)

/-- Why an operation on files failed. -/
inductive Fault where
  /-- There is no such entry. -/
  | missing
  /-- There is an entry already. -/
  | taken
  /-- A part of the path is no directory. -/
  | notDirectory
  /-- The entry is a directory. -/
  | isDirectory
  /-- The content of a file is not UTF-8. -/
  | notText
  deriving DecidableEq, Repr

/-- The message that an operating system gives for a fault. -/
def Fault.message : Fault → String
  | .missing => "No such file or directory (os error 2)"
  | .taken => "File exists (os error 17)"
  | .notDirectory => "Not a directory (os error 20)"
  | .isDirectory => "Is a directory (os error 21)"
  | .notText => "stream did not contain valid UTF-8"

/-- The text with a UTF-8 encoding. -/
def decodeText (content : ByteArray) : Except Fault String :=
  match String.fromUTF8? content with
  | some text => .ok text
  | none => .error .notText

/-- Whether a name can be that of an entry: fillers and `..` lead somewhere else. -/
def isEntryName (name : String) : Bool :=
  !isFiller name && name != ".."

/-! ### Entries at locations -/

/-- What stands at a place, by a list of what stands at each place but the root. The root is a
directory. -/
def entryAt (entries : List (Location × Entry)) : Location → Option Entry
  | [] => some .directory
  | name :: names => entries.lookup (name :: names)

/-- Puts an entry in the place of an earlier one, or at the end. -/
def setEntry (location : Location) (entry : Entry) :
    List (Location × Entry) → List (Location × Entry)
  | [] => [(location, entry)]
  | (other, old) :: rest =>
    if other = location then (location, entry) :: rest
    else (other, old) :: setEntry location entry rest

/-- Whether a place is one inside a directory, under the name of an entry. -/
def Housed (entries : List (Location × Entry)) (location : Location) : Prop :=
  ∃ above name, location = above ++ [name] ∧ isEntryName name = true ∧
    entryAt entries above = some .directory

theorem housed_nil : ∀ listed ∈ ([] : List (Location × Entry)), Housed [] listed.1 :=
  List.forall_mem_nil _

/-! ### File systems -/

/-- A file system with a working directory. -/
structure FileSystem where
  /-- What stands at each place but the root. -/
  entries : List (Location × Entry) := []
  /-- The working directory. -/
  workingDirectory : Location := []
  /-- At each place stands one entry. -/
  distinct : (entries.map (·.1)).Nodup := by exact List.nodup_nil
  /-- Each entry stands in a directory. -/
  housed : ∀ listed ∈ entries, Housed entries listed.1 := by exact IconMarkup.Files.housed_nil

/-- Setting an entry changes what is found at its place and nothing else. -/
theorem lookup_setEntry (location other : Location) (entry : Entry)
    (entries : List (Location × Entry)) :
    (setEntry location entry entries).lookup other =
      if other = location then some entry else entries.lookup other := by
  by_cases hother : other = location
  · subst hother
    rw [if_pos rfl]
    induction entries with
    | nil => simp [setEntry]
    | cons listed rest ih =>
      rw [setEntry]
      split
      · simp
      · rename_i hplace
        rw [List.lookup_cons, beq_false_of_ne (Ne.symm hplace), ih]
  · rw [if_neg hother]
    induction entries with
    | nil => simp [setEntry, List.lookup_cons, beq_false_of_ne hother]
    | cons listed rest ih =>
      rw [setEntry]
      split
      · rename_i hplace
        rw [List.lookup_cons, List.lookup_cons, hplace, beq_false_of_ne hother]
      · rw [List.lookup_cons, List.lookup_cons, ih]

theorem entryAt_setEntry {location : Location} (h : location ≠ []) (other : Location)
    (entry : Entry) (entries : List (Location × Entry)) :
    entryAt (setEntry location entry entries) other =
      if other = location then some entry else entryAt entries other := by
  cases other with
  | nil => rw [if_neg (Ne.symm h), entryAt, entryAt]
  | cons name names => rw [entryAt, entryAt, lookup_setEntry]

/-- A place that has an entry is not listed a second time. -/
theorem map_fst_setEntry (location : Location) (entry : Entry)
    (entries : List (Location × Entry)) :
    (setEntry location entry entries).map (·.1) =
      if location ∈ entries.map (·.1) then entries.map (·.1)
      else entries.map (·.1) ++ [location] := by
  induction entries with
  | nil => simp [setEntry]
  | cons listed rest ih =>
    obtain ⟨place, old⟩ := listed
    by_cases hplace : place = location
    · simp [setEntry, hplace]
    · rw [setEntry, if_neg hplace, List.map_cons, ih]
      simp only [List.map_cons, List.mem_cons, Ne.symm hplace, false_or, List.cons_append]
      split <;> rfl

/-- An entry that is listed once is the one that stands at its place. -/
theorem lookup_of_mem {location : Location} {entry : Entry} {entries : List (Location × Entry)}
    (hdistinct : (entries.map (·.1)).Nodup) (h : (location, entry) ∈ entries) :
    entries.lookup location = some entry := by
  induction entries with
  | nil => cases h
  | cons listed rest ih =>
    rw [List.map_cons, List.nodup_cons] at hdistinct
    rcases List.mem_cons.mp h with rfl | hrest
    · simp
    · have hne : location ≠ listed.1 := fun he =>
        hdistinct.1 (he ▸ List.mem_map.mpr ⟨_, hrest, rfl⟩)
      rw [List.lookup_cons, beq_false_of_ne hne, ih hdistinct.2 hrest]

namespace FileSystem

/-- What stands at a place. The root is a directory. -/
def get? (files : FileSystem) (location : Location) : Option Entry :=
  entryAt files.entries location

/-! ### Putting an entry -/

/-- Whether an entry can be put at a place: a file in the place of another one, and any entry at a
free place in a directory. -/
def admits (files : FileSystem) (location : Location) (entry : Entry) : Bool :=
  match files.get? location, entry with
  | some (.file _), .file _ => true
  | none, _ =>
    match files.get? location.dropLast, location.getLast? with
    | some .directory, some name => isEntryName name
    | _, _ => false
  | _, _ => false

/-- Only a file is ever replaced. -/
theorem get?_ne_directory_of_admits {files : FileSystem} {location : Location} {entry : Entry}
    (h : files.admits location entry = true) : files.get? location ≠ some .directory := by
  intro hdirectory
  cases entry <;> simp [admits, hdirectory] at h

/-- No entry can be put in the place of the root. -/
theorem ne_nil_of_admits {files : FileSystem} {location : Location} {entry : Entry}
    (h : files.admits location entry = true) : location ≠ [] := by
  rintro rfl
  exact get?_ne_directory_of_admits h rfl

/-- What stands anywhere but at the root is listed. -/
theorem mem_of_get?_ne_none {files : FileSystem} {location : Location} (hne : location ≠ [])
    (h : files.get? location ≠ none) : location ∈ files.entries.map (·.1) := by
  cases location with
  | nil => exact absurd rfl hne
  | cons name names =>
    obtain ⟨entry, hentry⟩ := Option.ne_none_iff_exists'.mp h
    obtain ⟨before, after, hlist, -⟩ := List.lookup_eq_some_iff.mp hentry
    rw [hlist]
    simp

/-- An entry can be put only where a directory is around it. -/
theorem housed_of_admits {files : FileSystem} {location : Location} {entry : Entry}
    (h : files.admits location entry = true) : Housed files.entries location := by
  rcases hold : files.get? location with _ | old
  · simp only [admits, hold] at h
    split at h
    · rename_i name habove hname
      obtain ⟨above, rfl⟩ := List.getLast?_eq_some_iff.mp hname
      rw [List.dropLast_concat] at habove
      exact ⟨above, name, rfl, h, habove⟩
    · cases h
  · have hmem : location ∈ files.entries.map (·.1) :=
      mem_of_get?_ne_none (ne_nil_of_admits h) (by simp [hold])
    obtain ⟨listed, hlisted, rfl⟩ := List.mem_map.mp hmem
    exact files.housed listed hlisted

theorem nodup_setEntry {location : Location} (entry : Entry) {entries : List (Location × Entry)}
    (h : (entries.map (·.1)).Nodup) : ((setEntry location entry entries).map (·.1)).Nodup := by
  rw [map_fst_setEntry]
  split
  · exact h
  · rename_i hnew
    rw [List.nodup_append]
    refine ⟨h, by simp, fun place hplace other hother heq => hnew ?_⟩
    exact List.mem_singleton.mp hother ▸ heq ▸ hplace

/-- What is put where it can be put leaves the other entries in their directories. -/
theorem housed_setEntry {files : FileSystem} {location : Location} {entry : Entry}
    (h : files.admits location entry = true) :
    ∀ listed ∈ setEntry location entry files.entries,
      Housed (setEntry location entry files.entries) listed.1 := by
  intro listed hlisted
  have hold : Housed files.entries listed.1 := by
    have hkey : listed.1 ∈ (setEntry location entry files.entries).map (·.1) :=
      List.mem_map.mpr ⟨listed, hlisted, rfl⟩
    have hcases : listed.1 ∈ files.entries.map (·.1) ∨ listed.1 = location := by
      rw [map_fst_setEntry] at hkey
      split at hkey
      · exact .inl hkey
      · rwa [List.mem_append, List.mem_singleton] at hkey
    rcases hcases with hkey | hkey
    · obtain ⟨other, hother, heq⟩ := List.mem_map.mp hkey
      exact heq ▸ files.housed other hother
    · exact hkey ▸ housed_of_admits h
  obtain ⟨above, name, hplace, hname, habove⟩ := hold
  refine ⟨above, name, hplace, hname, ?_⟩
  -- what is put replaces no directory, so it cannot stand above
  have hne : above ≠ location := by
    rintro rfl
    exact get?_ne_directory_of_admits h habove
  rw [entryAt_setEntry (ne_nil_of_admits h), if_neg hne, habove]

/-- Puts an entry at a place, if it can be put there. -/
def put (files : FileSystem) (location : Location) (entry : Entry) : FileSystem :=
  if h : files.admits location entry then
    { files with
      entries := setEntry location entry files.entries
      distinct := nodup_setEntry entry files.distinct
      housed := housed_setEntry h }
  else files

/-! ### What is found -/

/-- What stands above a place is a directory. -/
theorem get?_above {files : FileSystem} {above : Location} {name : String} {entry : Entry}
    (h : files.get? (above ++ [name]) = some entry) :
    files.get? above = some .directory ∧ isEntryName name = true := by
  have hmem : above ++ [name] ∈ files.entries.map (·.1) :=
    mem_of_get?_ne_none (by simp) (by simp [h])
  obtain ⟨listed, hlisted, heq⟩ := List.mem_map.mp hmem
  obtain ⟨above', name', hplace, hname, habove⟩ := files.housed listed hlisted
  rw [heq] at hplace
  obtain ⟨rfl, hlast⟩ := List.append_inj' hplace rfl
  cases hlast
  exact ⟨habove, hname⟩

/-- What is listed is what stands at its place. -/
theorem get?_of_mem_entries {files : FileSystem} {location : Location} {entry : Entry}
    (h : (location, entry) ∈ files.entries) : files.get? location = some entry := by
  obtain ⟨above, name, hplace, -⟩ := files.housed _ h
  have hlookup := lookup_of_mem files.distinct h
  cases location with
  | nil => simp at hplace
  | cons first rest => exact hlookup

/-- Putting an entry leaves all other places as they are. -/
theorem get?_put_of_ne {files : FileSystem} {location other : Location} (entry : Entry)
    (h : other ≠ location) : (files.put location entry).get? other = files.get? other := by
  rw [put]
  split
  · rename_i hadmits
    rw [get?, entryAt_setEntry (ne_nil_of_admits hadmits), if_neg h, get?]
  · rfl

/-- An entry that can be put stands where it was put. -/
theorem get?_put_self {files : FileSystem} {location : Location} {entry : Entry}
    (h : files.admits location entry = true) :
    (files.put location entry).get? location = some entry := by
  rw [put, dif_pos h, get?, entryAt_setEntry (ne_nil_of_admits h), if_pos rfl]

@[simp]
theorem put_workingDirectory (files : FileSystem) (location : Location) (entry : Entry) :
    (files.put location entry).workingDirectory = files.workingDirectory := by
  rw [put]
  split <;> rfl

/-! ### Following paths -/

/-- Goes on by one piece of a path. -/
def follow (files : FileSystem) (location : Location) (piece : String) :
    Except Fault Location :=
  match files.get? location with
  | some .directory =>
    if isFiller piece then .ok location
    else if piece = ".." then .ok location.dropLast
    else if (files.get? (location ++ [piece])).isSome then .ok (location ++ [piece])
    else .error .missing
  | some (.file _) => .error .notDirectory
  | none => .error .missing

/-- Where a path begins. -/
def origin (files : FileSystem) (path : Path) : Location :=
  if path.isAbsolute then [] else files.workingDirectory

/-- Where pieces of a path lead. -/
def followAll (files : FileSystem) (location : Location) (pieces : List String) :
    Except Fault Location :=
  pieces.foldlM files.follow location

/-- The place that a path leads to. -/
def resolve (files : FileSystem) (path : Path) : Except Fault Location :=
  if path.isEmpty then .error .missing
  else files.followAll (files.origin path) path.pieces

/-- What a path leads to. -/
def entry? (files : FileSystem) (path : Path) : Option Entry :=
  match files.resolve path with
  | .ok location => files.get? location
  | .error _ => none

/-- Whether a path leads anywhere. -/
def has (files : FileSystem) (path : Path) : Bool :=
  (files.entry? path).isSome

/-- Whether a path leads to a file. -/
def isFile (files : FileSystem) (path : Path) : Bool :=
  match files.entry? path with
  | some (.file _) => true
  | _ => false

/-- Whether a path leads to a directory. -/
def isDirectory (files : FileSystem) (path : Path) : Bool :=
  match files.entry? path with
  | some .directory => true
  | _ => false

/-- Whether two paths lead to the same place. -/
def sameFile (files : FileSystem) (a b : Path) : Bool :=
  match files.resolve a, files.resolve b with
  | .ok a, .ok b => a == b
  | _, _ => false

/-! ### Reading and writing -/

/-- The text of the file that a path leads to. -/
def readText (files : FileSystem) (path : Path) : Except Fault String := do
  match files.get? (← files.resolve path) with
  | some (.file content) => decodeText content
  | some .directory => .error .isDirectory
  | none => .error .missing

/-- Where the entry that a path names stands or would stand: its directory and its name. Slashes at
the end do not count. -/
def newEntry (files : FileSystem) (path : Path) : Except Fault (Location × String) := do
  let location ← files.followAll (files.origin path) path.unslashed.dropLast
  match files.get? location with
  | some .directory =>
    match path.unslashed.getLast? with
    | some name => if isEntryName name then .ok (location, name) else .error .taken
    | none => .error .taken
  | some (.file _) => .error .notDirectory
  | none => .error .missing

/-- Writes a file, in place of an earlier one or as a new one. -/
def writeFile (files : FileSystem) (path : Path) (content : ByteArray) :
    Except Fault FileSystem :=
  match files.resolve path with
  | .ok location =>
    match files.get? location with
    | some .directory => .error .isDirectory
    | _ => .ok (files.put location (.file content))
  | .error .missing => do
    if path.isEmpty then .error .missing
    else
      let (location, name) ← files.newEntry path
      if (files.get? (location ++ [name])).isSome || path.pieces.getLast? = some "" then
        .error .isDirectory
      else .ok (files.put (location ++ [name]) (.file content))
  | .error fault => .error fault

/-- Makes a directory. -/
def makeDirectory (files : FileSystem) (path : Path) : Except Fault FileSystem := do
  let (location, name) ← files.newEntry path
  if (files.get? (location ++ [name])).isSome then .error .taken
  else .ok (files.put (location ++ [name]) .directory)

/-- Makes a directory and the missing directories above it. The file system after it is given even
if it fails, because the directories above may have been made. -/
def makeDirectories (files : FileSystem) (path : Path) : FileSystem × Option Fault :=
  go (path.pieces.length + 1) files path
where
  /-- Makes a directory, and before it the one above if that is missing. -/
  go : (fuel : Nat) → FileSystem → Path → FileSystem × Option Fault
    | 0, files, _ => (files, some .missing)
    | fuel + 1, files, path =>
      if path.isEmpty then (files, none)
      else
        match files.makeDirectory path with
        | .ok files => (files, none)
        | .error .missing =>
          match path.parent? with
          | none => (files, some .missing)
          | some parent =>
            match go fuel files parent with
            | (files, some fault) => (files, some fault)
            | (files, none) => finish files path (files.makeDirectory path)
        | .error fault => finish files path (.error fault)
  /-- The outcome of making a directory, which may be there already. -/
  finish (files : FileSystem) (path : Path) : Except Fault FileSystem → FileSystem × Option Fault
    | .ok files => (files, none)
    | .error fault => (files, if files.isDirectory path then none else some fault)

/-! ### Walking directories -/

/-- Whether names come before others: a directory's contents stand where its name sorts. -/
def precedes : List String → List String → Bool
  | [], _ => true
  | _ :: _, [] => false
  | a :: as, b :: bs => a < b || (a == b && precedes as bs)

/-- The names from a directory to each file below it, in order. Names that begin with a dot are left
out, with everything below them. -/
def filesBelow (files : FileSystem) (location : Location) : List (List String) :=
  let below := files.entries.filterMap fun (place, entry) =>
    match entry with
    | .file _ =>
      if location.isPrefixOf place then some (place.drop location.length) else none
    | .directory => none
  (below.filter fun names => names.all fun name => !name.startsWith ".").mergeSort precedes

/-- The files that a path leads to: the file itself, or all files below a directory. -/
def walk (files : FileSystem) (path : Path) : List Path :=
  match files.resolve path with
  | .error _ => []
  | .ok location =>
    match files.get? location with
    | some .directory =>
      (files.filesBelow location).map fun names =>
        names.foldl (fun path name => path.join ⟨[name]⟩) path
    | some (.file _) =>
      match path.fileName? with
      | some name => [(path.parent?.getD .empty).join ⟨[name]⟩]
      | none => []
    | none => []

end FileSystem

end IconMarkup.Files
