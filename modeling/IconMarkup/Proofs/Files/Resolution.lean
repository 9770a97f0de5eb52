import Mathlib.Data.List.DropRight
import IconMarkup.Files.FileSystem

/-!
# Where paths lead

Facts about following the pieces of a path in one file system. A path that leads to a file ends in
the name of the file (`exists_of_followAll_file`), since fillers and `..` lead to directories, and
what stands above an entry is a directory (`get?_of_append`). Without `..` the place goes on from
the place where following began (`exists_of_followAll`).
-/

namespace IconMarkup.Files.FileSystem

variable {files : FileSystem} {location place : Location} {piece : String} {pieces : List String}

/-! ### Places -/

/-- What stands above a place with an entry is a directory. -/
theorem get?_of_append {above below : Location} (hne : below ≠ [])
    (h : (files.get? (above ++ below)).isSome) : files.get? above = some .directory := by
  induction below using List.reverseRecOn with
  | nil => exact absurd rfl hne
  | append_singleton below name ih =>
    rw [← List.append_assoc] at h
    obtain ⟨entry, hentry⟩ := Option.isSome_iff_exists.mp h
    have habove := (get?_above hentry).1
    rcases eq_or_ne below [] with rfl | hbelow
    · rwa [List.append_nil] at habove
    · exact ih hbelow (by rw [habove]; rfl)

/-- The directory above a directory is one. -/
theorem get?_dropLast (h : files.get? location = some .directory) :
    files.get? location.dropLast = some .directory := by
  induction location using List.reverseRecOn with
  | nil => exact h
  | append_singleton above name _ =>
    rw [List.dropLast_concat]
    exact (get?_above h).1

/-! ### Following one piece -/

theorem isEntryName_eq_true_iff {name : String} :
    isEntryName name = true ↔ isFiller name = false ∧ name ≠ ".." := by
  simp [isEntryName]

theorem follow_filler (hdirectory : files.get? location = some .directory)
    (h : isFiller piece = true) : files.follow location piece = .ok location := by
  rw [follow, hdirectory]
  exact if_pos h

theorem follow_above (hdirectory : files.get? location = some .directory) :
    files.follow location ".." = .ok location.dropLast := by
  rw [follow, hdirectory]
  rfl

theorem follow_name (hdirectory : files.get? location = some .directory)
    (hname : isEntryName piece = true) (h : (files.get? (location ++ [piece])).isSome) :
    files.follow location piece = .ok (location ++ [piece]) := by
  obtain ⟨hfiller, habove⟩ := isEntryName_eq_true_iff.mp hname
  rw [follow, hdirectory]
  simp only [hfiller, Bool.false_eq_true, if_false, habove, h, if_true]

/-- All ways of going on by one piece. -/
theorem follow_cases (h : files.follow location piece = .ok place) :
    files.get? location = some .directory ∧
      (isFiller piece = true ∧ place = location ∨
        piece = ".." ∧ place = location.dropLast ∨
        isEntryName piece = true ∧ place = location ++ [piece] ∧ (files.get? place).isSome) := by
  rw [follow] at h
  split at h
  · rename_i hdirectory
    refine ⟨hdirectory, ?_⟩
    split at h
    · rename_i hfiller
      cases h
      exact .inl ⟨hfiller, rfl⟩
    · rename_i hfiller
      split at h
      · rename_i habove
        cases h
        exact .inr (.inl ⟨habove, rfl⟩)
      · rename_i habove
        split at h
        · rename_i hsome
          cases h
          have hname := isEntryName_eq_true_iff.mpr ⟨by simpa using hfiller, habove⟩
          exact .inr (.inr ⟨hname, rfl, hsome⟩)
        · cases h
  · cases h
  · cases h

theorem follow_of_isEntryName (h : files.follow location piece = .ok place)
    (hname : isEntryName piece = true) :
    place = location ++ [piece] ∧ (files.get? place).isSome := by
  obtain ⟨hfiller, habove⟩ := isEntryName_eq_true_iff.mp hname
  obtain ⟨-, hcases⟩ := follow_cases h
  rcases hcases with ⟨hfiller', -⟩ | ⟨habove', -⟩ | ⟨-, hplace⟩
  · rw [hfiller] at hfiller'
    cases hfiller'
  · exact absurd habove' habove
  · exact hplace

/-- Only a name leads to a file. -/
private theorem follow_cases_file {content : ByteArray}
    (h : files.follow location piece = .ok place)
    (hfile : files.get? place = some (.file content)) :
    files.get? location = some .directory ∧ isEntryName piece = true ∧
      place = location ++ [piece] := by
  obtain ⟨hdirectory, hcases⟩ := follow_cases h
  rcases hcases with ⟨-, rfl⟩ | ⟨-, rfl⟩ | ⟨hname, hplace, -⟩
  · rw [hdirectory] at hfile
    cases hfile
  · rw [get?_dropLast hdirectory] at hfile
    cases hfile
  · exact ⟨hdirectory, hname, hplace⟩

/-! ### Following pieces -/

@[simp]
theorem followAll_nil : files.followAll location [] = .ok location := rfl

theorem followAll_cons_eq_ok_iff :
    files.followAll location (piece :: pieces) = .ok place ↔
      ∃ next, files.follow location piece = .ok next ∧ files.followAll next pieces = .ok place := by
  rw [followAll, List.foldlM_cons]
  rcases files.follow location piece with fault | next
  · simp [bind, Except.bind]
  · simp [bind, Except.bind, followAll]

theorem followAll_append_eq_ok_iff {first second : List String} :
    files.followAll location (first ++ second) = .ok place ↔
      ∃ next, files.followAll location first = .ok next ∧
        files.followAll next second = .ok place := by
  induction first generalizing location with
  | nil => simp
  | cons piece first ih =>
    rw [List.cons_append, followAll_cons_eq_ok_iff]
    simp only [followAll_cons_eq_ok_iff, ih]
    constructor
    · rintro ⟨next, hnext, mid, hmid, hplace⟩
      exact ⟨mid, ⟨next, hnext, hmid⟩, hplace⟩
    · rintro ⟨mid, ⟨next, hnext, hmid⟩, hplace⟩
      exact ⟨next, hnext, mid, hmid, hplace⟩

theorem followAll_singleton (files : FileSystem) (location : Location) (piece : String) :
    files.followAll location [piece] = files.follow location piece := by
  rw [followAll, List.foldlM_cons]
  rcases files.follow location piece with fault | next <;> rfl

theorem followAll_singleton_eq_ok_iff :
    files.followAll location [piece] = .ok place ↔ files.follow location piece = .ok place := by
  rw [followAll_singleton]

/-- Pieces that lead to a file end in its name. -/
theorem exists_of_followAll_file {content : ByteArray} (hne : pieces ≠ [])
    (h : files.followAll location pieces = .ok place)
    (hfile : files.get? place = some (.file content)) :
    ∃ before name above, pieces = before ++ [name] ∧ isEntryName name = true ∧
      files.followAll location before = .ok above ∧ files.get? above = some .directory ∧
      place = above ++ [name] := by
  induction pieces using List.reverseRecOn with
  | nil => exact absurd rfl hne
  | append_singleton before name _ =>
    obtain ⟨above, habove, hname⟩ := followAll_append_eq_ok_iff.mp h
    rw [followAll_singleton_eq_ok_iff] at hname
    obtain ⟨hdirectory, hentry, hplace⟩ := follow_cases_file hname hfile
    exact ⟨before, name, above, rfl, hentry, habove, hdirectory, hplace⟩

/-- Without `..`, following goes on from where it began. -/
theorem exists_of_followAll (hno : ".." ∉ pieces)
    (h : files.followAll location pieces = .ok place) : ∃ below, place = location ++ below := by
  induction pieces generalizing location with
  | nil =>
    cases h
    exact ⟨[], (List.append_nil _).symm⟩
  | cons piece pieces ih =>
    obtain ⟨next, hnext, hrest⟩ := followAll_cons_eq_ok_iff.mp h
    rw [List.mem_cons, not_or] at hno
    obtain ⟨below, rfl⟩ := ih hno.2 hrest
    obtain ⟨-, hcases⟩ := follow_cases hnext
    rcases hcases with ⟨-, rfl⟩ | ⟨rfl, -⟩ | ⟨-, rfl, -⟩
    · exact ⟨below, rfl⟩
    · exact absurd rfl hno.1
    · exact ⟨piece :: below, by simp⟩

/-! ### Fillers at the end -/

/-- Fillers at the end lead nowhere else. -/
theorem followAll_rdropWhile {isDropped : String → Bool}
    (hfiller : ∀ piece, isDropped piece = true → isFiller piece = true)
    (h : files.followAll location pieces = .ok place) :
    files.followAll location (pieces.rdropWhile isDropped) = .ok place := by
  induction pieces using List.reverseRecOn with
  | nil => exact h
  | append_singleton before last ih =>
    by_cases hlast : isDropped last = true
    · rw [List.rdropWhile_concat_pos _ _ _ hlast]
      obtain ⟨next, hnext, hplace⟩ := followAll_append_eq_ok_iff.mp h
      rw [followAll_singleton_eq_ok_iff] at hplace
      obtain ⟨hdirectory, -⟩ := follow_cases hplace
      rw [follow_filler hdirectory (hfiller last hlast)] at hplace
      cases hplace
      exact ih hnext
    · rwa [List.rdropWhile_concat_neg _ _ _ hlast]

/-- At a directory, fillers may follow. -/
theorem followAll_of_rdropWhile {isDropped : String → Bool}
    (hfiller : ∀ piece, isDropped piece = true → isFiller piece = true)
    (hdirectory : files.get? place = some .directory)
    (h : files.followAll location (pieces.rdropWhile isDropped) = .ok place) :
    files.followAll location pieces = .ok place := by
  induction pieces using List.reverseRecOn with
  | nil => exact h
  | append_singleton before last ih =>
    by_cases hlast : isDropped last = true
    · rw [List.rdropWhile_concat_pos _ _ _ hlast] at h
      refine followAll_append_eq_ok_iff.mpr ⟨place, ih h, ?_⟩
      rw [followAll_singleton_eq_ok_iff, follow_filler hdirectory (hfiller last hlast)]
    · rwa [List.rdropWhile_concat_neg _ _ _ hlast] at h

theorem isFiller_of_beq_empty (piece : String) (h : (piece == "") = true) :
    isFiller piece = true := by
  rw [isFiller, h, Bool.true_or]

/-! ### Paths -/

theorem isEmpty_eq_false_iff {path : Path} :
    path.isEmpty = false ↔ path.pieces ≠ [] ∧ path.pieces ≠ [""] := by
  obtain ⟨pieces⟩ := path
  simp [Path.isEmpty, Path.empty]

theorem resolve_eq_ok_iff {path : Path} :
    files.resolve path = .ok place ↔
      path.isEmpty = false ∧ files.followAll (files.origin path) path.pieces = .ok place := by
  rw [resolve]
  split <;> simp_all

theorem isAbsolute_of_pieces {path : Path} {first : String} {rest : List String}
    (h : path.pieces = first :: rest) : path.isAbsolute = (first == "" && !rest.isEmpty) := by
  rw [Path.isAbsolute, h]
  by_cases hfirst : first = "" <;> cases rest <;> simp [hfirst]

theorem isAbsolute_singleton (name : String) : (⟨[name]⟩ : Path).isAbsolute = false := by
  rw [isAbsolute_of_pieces rfl]
  simp

/-- The pieces of a path of an entry: those of the directory without a slash at its end, and those
of the entry. -/
theorem pieces_join {path other : Path} (hpath : path.isEmpty = false)
    (hrelative : other.isAbsolute = false) :
    ∃ before, (path.join other).pieces = before ++ other.pieces ∧ before ≠ [] ∧
      (path.pieces = before ∧ before ≠ [""] ∨ path.pieces = before ++ [""]) := by
  obtain ⟨hne, hne'⟩ := isEmpty_eq_false_iff.mp hpath
  have hnot : path ≠ .empty := fun h => hne' (by rw [h, Path.empty])
  have hjoin : path.join other =
      if path.pieces.getLast? = some "" then ⟨path.pieces.dropLast ++ other.pieces⟩
      else ⟨path.pieces ++ other.pieces⟩ := by
    simp [Path.join, hrelative, hnot]
  rw [hjoin]
  split
  · rename_i hlast
    obtain ⟨before, hbefore⟩ := List.getLast?_eq_some_iff.mp hlast
    refine ⟨before, by rw [hbefore, List.dropLast_concat], ?_, .inr hbefore⟩
    rintro rfl
    exact hne' hbefore
  · exact ⟨path.pieces, rfl, hne, .inl ⟨rfl, hne'⟩⟩

theorem join_of_isEmpty {path : Path} (h : path.isEmpty = true) (other : Path) :
    path.join other = other := by
  obtain ⟨pieces⟩ := path
  rcases of_decide_eq_true h with hnil | hempty
  · subst hnil
    simp [Path.join, Path.empty]
  · simp [Path.join, hempty]

/-- The path of an entry begins where the path of the directory does. -/
theorem origin_join (files : FileSystem) {path other : Path} (hpath : path.isEmpty = false)
    (hother : other.pieces ≠ []) (hrelative : other.isAbsolute = false) :
    (path.join other).isEmpty = false ∧ files.origin (path.join other) = files.origin path := by
  obtain ⟨before, hpieces, hne, hbefore⟩ := pieces_join hpath hrelative
  have habsolute : (path.join other).isAbsolute = path.isAbsolute := by
    obtain ⟨first, rest, rfl⟩ := List.exists_cons_of_ne_nil hne
    rw [isAbsolute_of_pieces hpieces]
    rcases hbefore with ⟨hsame, hne'⟩ | hslash
    · rw [isAbsolute_of_pieces hsame]
      cases rest with
      | nil => simp [show first ≠ "" from fun h => hne' (by rw [h])]
      | cons second rest => rfl
    · rw [isAbsolute_of_pieces hslash]
      cases rest <;> simp [hother]
  constructor
  · rw [isEmpty_eq_false_iff, hpieces]
    cases before <;> simp_all
  · rw [origin, origin, habsolute]

/-- The path of an entry is followed from where the path of the directory leads. -/
theorem resolve_join_eq_ok_iff {path other : Path} (hpath : path.isEmpty = false)
    (hother : other.pieces ≠ []) (hrelative : other.isAbsolute = false) :
    files.resolve (path.join other) = .ok place ↔
      ∃ directory, files.resolve path = .ok directory ∧
        files.followAll directory other.pieces = .ok place := by
  obtain ⟨before, hpieces, -, hbefore⟩ := pieces_join hpath hrelative
  obtain ⟨hempty, horigin⟩ := origin_join files hpath hother hrelative
  simp only [resolve_eq_ok_iff, hempty, hpath, true_and, horigin, hpieces,
    followAll_append_eq_ok_iff]
  rcases hbefore with ⟨hsame, -⟩ | hslash
  · rw [hsame]
  · -- the slash asks for a directory, and so does the entry
    rw [hslash]
    constructor
    · rintro ⟨next, hnext, hplace⟩
      obtain ⟨piece, pieces, hcons⟩ := List.exists_cons_of_ne_nil hother
      obtain ⟨_, hfollow, -⟩ := followAll_cons_eq_ok_iff.mp (hcons ▸ hplace)
      have hfiller : files.followAll next [""] = .ok next :=
        followAll_singleton_eq_ok_iff.mpr (follow_filler (follow_cases hfollow).1 rfl)
      exact ⟨next, followAll_append_eq_ok_iff.mpr ⟨next, hnext, hfiller⟩, hplace⟩
    · rintro ⟨next, hnext, hplace⟩
      obtain ⟨above, habove, hfiller⟩ := followAll_append_eq_ok_iff.mp hnext
      rw [followAll_singleton_eq_ok_iff] at hfiller
      rw [follow_filler (follow_cases hfiller).1 rfl] at hfiller
      cases hfiller
      exact ⟨next, habove, hplace⟩

theorem isDirectory_eq_true_iff {path : Path} :
    files.isDirectory path = true ↔
      ∃ place, files.resolve path = .ok place ∧ files.get? place = some .directory := by
  rw [isDirectory, entry?]
  rcases files.resolve path with fault | place
  · simp
  · rcases hget : files.get? place with _ | _ | content <;> simp [hget]

theorem isFile_eq_true_iff {path : Path} :
    files.isFile path = true ↔
      ∃ place content, files.resolve path = .ok place ∧
        files.get? place = some (.file content) := by
  rw [isFile, entry?]
  rcases files.resolve path with fault | place
  · simp
  · rcases hget : files.get? place with _ | _ | content <;> simp [hget]

theorem isFile_of_isDirectory {path : Path} (h : files.isDirectory path = true) :
    files.isFile path = false := by
  obtain ⟨place, hresolve, hdirectory⟩ := isDirectory_eq_true_iff.mp h
  rw [isFile, entry?, hresolve]
  simp only [hdirectory]

theorem head?_of_pieces {path : Path} {first : String} {rest : List String}
    (h : path.pieces = first :: rest) :
    path.head? = if first = "" ∧ rest ≠ [] then some .root
      else if first = "." then some .here else none := by
  rw [Path.head?, h]
  by_cases hroot : first = ""
  · subst hroot
    cases rest <;> simp
  · by_cases hhere : first = "." <;> simp [hroot, hhere]

/-! ### The directory above -/

/-- How a path is spelled: from the root on, from `.` on, or from a piece that is neither. -/
inductive Spelled (path : Path) : Prop
  | root (pieces : path.pieces = "" :: path.body) (head : path.head? = some .root)
      (absolute : path.isAbsolute = true)
  | here (pieces : path.pieces = "." :: path.body) (head : path.head? = some .here)
      (relative : path.isAbsolute = false)
  | none (pieces : path.pieces = path.body) (head : path.head? = none)
      (relative : path.isAbsolute = false)

theorem spelled (path : Path) : Spelled path := by
  rcases hpieces : path.pieces with _ | ⟨first, rest⟩
  · have hhead : path.head? = none := by
      rw [Path.head?, hpieces]
    exact .none (by rw [Path.body, hhead]; rfl) hhead (by rw [Path.isAbsolute, hpieces])
  have hhead := head?_of_pieces hpieces
  have habsolute := isAbsolute_of_pieces hpieces
  by_cases hroot : first = "" ∧ rest ≠ []
  · rw [if_pos hroot] at hhead
    refine .root ?_ hhead (by simp [habsolute, hroot])
    rw [Path.body, hhead, hpieces, hroot.1]
    rfl
  have hrelative : path.isAbsolute = false := by
    rw [habsolute]
    simpa using hroot
  rw [if_neg hroot] at hhead
  by_cases hhere : first = "."
  · rw [if_pos hhere] at hhead
    refine .here ?_ hhead hrelative
    rw [Path.body, hhead, hpieces, hhere]
    rfl
  · rw [if_neg hhere] at hhead
    refine .none ?_ hhead hrelative
    rw [Path.body, hhead]
    rfl

/-- The special first piece of a path leads nowhere else. -/
private theorem followAll_body {path : Path}
    (h : files.followAll (files.origin path) path.pieces = .ok place) :
    files.followAll (files.origin path) path.body = .ok place ∧
      (path.head?.isSome → files.get? (files.origin path) = some .directory) := by
  have hstep : ∀ {piece}, isFiller piece = true → path.pieces = piece :: path.body →
      files.followAll (files.origin path) path.body = .ok place ∧
        files.get? (files.origin path) = some .directory := by
    intro piece hfiller hpieces
    rw [hpieces] at h
    obtain ⟨next, hnext, hrest⟩ := followAll_cons_eq_ok_iff.mp h
    have hdirectory := (follow_cases hnext).1
    rw [follow_filler hdirectory hfiller] at hnext
    cases hnext
    exact ⟨hrest, hdirectory⟩
  rcases spelled path with ⟨hpieces, -, -⟩ | ⟨hpieces, -, -⟩ | ⟨hpieces, hhead, -⟩
  · exact (hstep rfl hpieces).imp_right fun hdirectory _ => hdirectory
  · exact (hstep rfl hpieces).imp_right fun hdirectory _ => hdirectory
  · rw [hpieces] at h
    exact ⟨h, by simp [hhead]⟩

theorem parent?_of_body {path : Path} {before : List String} {name : String}
    (hbody : path.body = before ++ [name]) (hname : isFiller name = false) :
    path.parent? = some (.ofBody path.head? (Path.trimEnd before)) := by
  have htrim : Path.trimEnd path.body = before ++ [name] := by
    rw [hbody]
    exact List.rdropWhile_concat_neg _ _ _ (by simp [hname])
  rw [Path.parent?, htrim]
  split
  · rename_i hnil
    simp at hnil
  · rw [List.dropLast_concat]

/-- Pieces from the root on, written as a path. -/
private theorem resolve_ofBody_root (h : files.followAll [] pieces = .ok place) :
    files.resolve (.ofBody (some .root) (Path.trimEnd pieces)) = .ok place := by
  have htrim : files.followAll [] (Path.trimEnd pieces) = .ok place :=
    followAll_rdropWhile (fun _ => id) h
  have hroot : files.follow [] "" = .ok [] := follow_filler rfl rfl
  generalize Path.trimEnd pieces = trimmed at htrim ⊢
  rcases trimmed with _ | ⟨first, rest⟩
  · cases htrim
    exact resolve_eq_ok_iff.mpr ⟨rfl, followAll_cons_eq_ok_iff.mpr
      ⟨[], hroot, followAll_singleton_eq_ok_iff.mpr hroot⟩⟩
  · have hpieces : (Path.ofBody (some .root) (first :: rest)).pieces = "" :: first :: rest := rfl
    rw [resolve_eq_ok_iff, isEmpty_eq_false_iff, origin, isAbsolute_of_pieces hpieces, hpieces]
    exact ⟨by simp, followAll_cons_eq_ok_iff.mpr ⟨[], hroot, htrim⟩⟩

/-- Pieces from the working directory on, written as a path that begins with `.`. -/
private theorem resolve_ofBody_here
    (hdirectory : files.get? files.workingDirectory = some .directory)
    (h : files.followAll files.workingDirectory pieces = .ok place) :
    files.resolve (.ofBody (some .here) (Path.trimEnd pieces)) = .ok place := by
  have htrim : files.followAll files.workingDirectory (Path.trimEnd pieces) = .ok place :=
    followAll_rdropWhile (fun _ => id) h
  have hpieces : (Path.ofBody (some .here) (Path.trimEnd pieces)).pieces =
      "." :: Path.trimEnd pieces := rfl
  rw [resolve_eq_ok_iff, isEmpty_eq_false_iff, origin, isAbsolute_of_pieces hpieces, hpieces]
  exact ⟨by simp, followAll_cons_eq_ok_iff.mpr ⟨_, follow_filler hdirectory rfl, htrim⟩⟩

/-- Pieces from the working directory on, written as a path, which spells nothing if they are
fillers. -/
private theorem resolve_ofBody_none (hhead : pieces.head? ≠ some "")
    (h : files.followAll files.workingDirectory pieces = .ok place) :
    (Path.ofBody none (Path.trimEnd pieces)).isEmpty = true ∨
      files.resolve (.ofBody none (Path.trimEnd pieces)) = .ok place := by
  have htrim : files.followAll files.workingDirectory (Path.trimEnd pieces) = .ok place :=
    followAll_rdropWhile (fun _ => id) h
  have hstarts : Path.trimEnd pieces <+: pieces := List.rdropWhile_prefix _ _
  generalize Path.trimEnd pieces = trimmed at htrim hstarts ⊢
  rcases trimmed with _ | ⟨first, rest⟩
  · exact .inl rfl
  · have hfirst : first ≠ "" := by
      obtain ⟨more, rfl⟩ := hstarts
      exact fun hfirst => hhead (by rw [hfirst]; rfl)
    have hpieces : (Path.ofBody none (first :: rest)).pieces = first :: rest := rfl
    right
    rw [resolve_eq_ok_iff, isEmpty_eq_false_iff, origin, isAbsolute_of_pieces hpieces, hpieces]
    simp only [beq_false_of_ne hfirst, Bool.false_and, Bool.false_eq_true, if_false]
    exact ⟨by simp [hfirst], htrim⟩

/-- A path that leads to a file ends in its name, below a directory. -/
theorem exists_body_of_file {path : Path} {content : ByteArray} (h : files.resolve path = .ok place)
    (hfile : files.get? place = some (.file content)) :
    ∃ before name above, path.body = before ++ [name] ∧ isEntryName name = true ∧
      files.followAll (files.origin path) before = .ok above ∧
      files.get? above = some .directory := by
  obtain ⟨hempty, hfollow⟩ := resolve_eq_ok_iff.mp h
  obtain ⟨hfollowed, horigin⟩ := followAll_body hfollow
  have hne : path.body ≠ [] := by
    intro hnil
    -- nothing but the special first piece leads to a directory
    rw [hnil] at hfollowed
    cases hfollowed
    rcases spelled path with ⟨-, hhead, -⟩ | ⟨-, hhead, -⟩ | ⟨hpieces, -, -⟩
    · simp [horigin (by simp [hhead])] at hfile
    · simp [horigin (by simp [hhead])] at hfile
    · exact (isEmpty_eq_false_iff.mp hempty).1 (hpieces.trans hnil)
  obtain ⟨before, name, above, hbody, hname, habove, hdirectory, -⟩ :=
    exists_of_followAll_file hne hfollowed hfile
  exact ⟨before, name, above, hbody, hname, habove, hdirectory⟩

/-- The path without its last component leads to where the pieces before that lead, unless it spells
nothing. -/
theorem resolve_parent?_of_body {path : Path} {before : List String} {name : String}
    {above : Location} (hbody : path.body = before ++ [name]) (hname : isFiller name = false)
    (habove : files.followAll (files.origin path) before = .ok above)
    (horigin : path.head?.isSome → files.get? (files.origin path) = some .directory) :
    (path.parent?.getD .empty).isEmpty = true ∨
      files.resolve (path.parent?.getD .empty) = .ok above := by
  rw [parent?_of_body hbody hname, Option.getD_some]
  rw [origin] at habove horigin
  rcases spelled path with ⟨-, hhead, habsolute⟩ | ⟨-, hhead, hrelative⟩ |
    ⟨hpieces, hhead, hrelative⟩
  -- the path of the directory begins where the path of the entry does
  · rw [if_pos habsolute] at habove
    rw [hhead]
    exact .inr (resolve_ofBody_root habove)
  · rw [if_neg (by simp [hrelative])] at habove horigin
    rw [hhead]
    exact .inr (resolve_ofBody_here (horigin (by simp [hhead])) habove)
  · rw [if_neg (by simp [hrelative])] at habove
    -- a path that begins with an empty piece would be absolute
    have hfirst : before.head? ≠ some "" := by
      intro hfirst
      obtain ⟨more, rfl⟩ := List.head?_eq_some_iff.mp hfirst
      rw [hbody, List.cons_append] at hpieces
      simp [isAbsolute_of_pieces hpieces] at hrelative
    rw [hhead]
    exact resolve_ofBody_none hfirst habove

/-- The directory above a file is one, unless its path spells nothing. -/
theorem resolve_parent? {path : Path} {content : ByteArray} (h : files.resolve path = .ok place)
    (hfile : files.get? place = some (.file content)) :
    (path.parent?.getD .empty).isEmpty = true ∨
      ∃ above, files.resolve (path.parent?.getD .empty) = .ok above ∧
        files.get? above = some .directory := by
  obtain ⟨before, name, above, hbody, hname, habove, hdirectory⟩ := exists_body_of_file h hfile
  have horigin := (followAll_body (resolve_eq_ok_iff.mp h).2).2
  exact (resolve_parent?_of_body hbody (isEntryName_eq_true_iff.mp hname).1 habove
    horigin).imp_right fun h => ⟨above, h, hdirectory⟩

end IconMarkup.Files.FileSystem
