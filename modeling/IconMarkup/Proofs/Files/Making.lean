import IconMarkup.Proofs.Files.Growth

/-!
# Making directories and writing files

What becomes of a place below a directory when a path goes on to it through names
(`FileSystem.GoesOn`). Making the directories on the way fails exactly when a file blocks the way,
and then it changes nothing; otherwise each place on the way is a directory afterwards, and all
other places are what they were (`MadeThrough`, `GoesOn.makeDirectories_parent?`). Once the
directories are there, writing fails exactly when the place cannot become a file
(`GoesOn.writeFile_eq_ok`, `GoesOn.writeFile_eq_error`).
-/

namespace IconMarkup.Files.FileSystem

variable {files : FileSystem} {path : Path} {base : Location} {last : String}
  {names pieces : List String}

/-! ### Names from a place on -/

theorem ne_empty_of_isEntryName {name : String} (h : isEntryName name = true) : name ≠ "" := by
  rintro rfl
  cases h

theorem followAll_append {location next : Location} {first second : List String}
    (h : files.followAll location first = .ok next) :
    files.followAll location (first ++ second) = files.followAll next second := by
  rw [followAll] at h ⊢
  rw [List.foldlM_append, h]
  rfl

private theorem followAll_append_of_error {location : Location} {fault : Fault}
    {first second : List String} (h : files.followAll location first = .error fault) :
    files.followAll location (first ++ second) = .error fault := by
  rw [followAll] at h ⊢
  rw [List.foldlM_append, h]
  rfl

/-- Names lead to nowhere else than to the place that they spell. -/
theorem followAll_names_eq_ok_iff (hnames : ∀ name ∈ names, isEntryName name = true)
    (hbase : files.get? base = some .directory) {place : Location} :
    files.followAll base names = .ok place ↔
      place = base ++ names ∧ (files.get? (base ++ names)).isSome := by
  induction names using List.reverseRecOn generalizing place with
  | nil => simp [hbase, eq_comm]
  | append_singleton names last ih =>
    rw [List.forall_mem_append] at hnames
    have hlast : isEntryName last = true := hnames.2 last (List.mem_singleton_self last)
    rw [← List.append_assoc, followAll_append_eq_ok_iff]
    simp only [ih hnames.1, followAll_singleton_eq_ok_iff]
    constructor
    · rintro ⟨next, ⟨rfl, -⟩, hfollow⟩
      obtain ⟨rfl, hsome⟩ := follow_of_isEntryName hfollow hlast
      exact ⟨rfl, hsome⟩
    · rintro ⟨rfl, hsome⟩
      have habove : files.get? (base ++ names) = some .directory := get?_of_append (by simp) hsome
      exact ⟨base ++ names, ⟨rfl, by rw [habove]; rfl⟩, follow_name habove hlast hsome⟩

/-- Whether a file stands on the way from a place through names, or at its end. -/
def Blocked (files : FileSystem) (base : Location) (names : List String) : Prop :=
  ∃ passed content, passed <+: names ∧ files.get? (base ++ passed) = some (.file content)

private theorem Blocked.mono {more : List String} (h : files.Blocked base names)
    (hmore : names <+: more) :
    files.Blocked base more := by
  obtain ⟨passed, content, hpassed, hfile⟩ := h
  exact ⟨passed, content, hpassed.trans hmore, hfile⟩

theorem Grows.blocked {after : FileSystem} (h : files.Grows after)
    (hblocked : files.Blocked base names) : after.Blocked base names := by
  obtain ⟨passed, content, hpassed, hfile⟩ := hblocked
  obtain ⟨content', hfile'⟩ := h.file hfile
  exact ⟨passed, content', hpassed, hfile'⟩

/-- All places on the way to a directory are directories. -/
private theorem get?_of_isPrefix {passed : List String} (hpassed : passed <+: names)
    (h : files.get? (base ++ names) = some .directory) :
    files.get? (base ++ passed) = some .directory := by
  obtain ⟨more, rfl⟩ := hpassed
  rcases eq_or_ne more [] with rfl | hne
  · rwa [List.append_nil] at h
  · rw [← List.append_assoc] at h
    exact get?_of_append hne (by rw [h]; rfl)

theorem not_blocked_of_directory (h : files.get? (base ++ names) = some .directory) :
    ¬ files.Blocked base names := by
  rintro ⟨passed, content, hpassed, hfile⟩
  rw [get?_of_isPrefix hpassed h] at hfile
  cases hfile

/-- The way through one name more is blocked before, or at that name. -/
private theorem blocked_concat_iff :
    files.Blocked base (names ++ [last]) ↔ files.Blocked base names ∨
      ∃ content, files.get? (base ++ (names ++ [last])) = some (.file content) := by
  constructor
  · rintro ⟨passed, content, hpassed, hfile⟩
    rcases List.prefix_concat_iff.mp hpassed with rfl | hpassed
    · exact .inr ⟨content, hfile⟩
    · exact .inl ⟨passed, content, hpassed, hfile⟩
  · rintro (hblocked | ⟨content, hfile⟩)
    · exact hblocked.mono (List.prefix_append ..)
    · exact ⟨_, content, List.prefix_rfl, hfile⟩

/-- Names that spell a place where nothing stands lead into a file, if one blocks the way, and
otherwise to something missing. -/
private theorem followAll_of_none (hnames : ∀ name ∈ names, isEntryName name = true)
    (hbase : files.get? base = some .directory) (h : files.get? (base ++ names) = none) :
    (files.Blocked base names → files.followAll base names = .error .notDirectory) ∧
      (¬ files.Blocked base names → files.followAll base names = .error .missing) := by
  induction names using List.reverseRecOn with
  | nil => simp [hbase] at h
  | append_singleton names last ih =>
    rw [List.forall_mem_append] at hnames
    have hlast : isEntryName last = true := hnames.2 last (List.mem_singleton_self last)
    simp only [blocked_concat_iff, h, reduceCtorEq, exists_false, or_false]
    rcases hget : files.get? (base ++ names) with _ | _ | content
    · -- the names before lead nowhere already
      obtain ⟨hblocked, hfree⟩ := ih hnames.1 hget
      exact ⟨fun hb => followAll_append_of_error (hblocked hb),
        fun hb => followAll_append_of_error (hfree hb)⟩
    all_goals
      have hbefore : files.followAll base names = .ok (base ++ names) :=
        (followAll_names_eq_ok_iff hnames.1 hbase).mpr ⟨rfl, by rw [hget]; rfl⟩
      rw [followAll_append hbefore, followAll_singleton, follow, hget]
    · obtain ⟨hfiller, habove⟩ := isEntryName_eq_true_iff.mp hlast
      simp [not_blocked_of_directory hget, hfiller, habove, h]
    · have hblocked : files.Blocked base names := ⟨names, content, List.prefix_rfl, hget⟩
      simp [hblocked]

/-! ### Paths through names -/

/-- Whether the first pieces of a path lead to a directory, and it goes on from there by others. -/
structure GoesOn (files : FileSystem) (path : Path) (base : Location) (pieces : List String) :
    Prop where
  nonempty : path.isEmpty = false
  spelled : ∃ before, path.pieces = before ++ pieces ∧
    files.followAll (files.origin path) before = .ok base
  directory : files.get? base = some .directory

theorem GoesOn.grows {after : FileSystem} (h : files.GoesOn path base pieces)
    (hgrows : files.Grows after) : after.GoesOn path base pieces := by
  obtain ⟨before, hpieces, hbefore⟩ := h.spelled
  refine ⟨h.nonempty, ⟨before, hpieces, ?_⟩, hgrows.directory h.directory⟩
  rw [origin, hgrows.workingDirectory]
  exact hgrows.followAll hbefore

theorem GoesOn.resolve_eq (h : files.GoesOn path base pieces) :
    files.resolve path = files.followAll base pieces := by
  obtain ⟨before, hpieces, hbefore⟩ := h.spelled
  simp [resolve, h.nonempty, hpieces, followAll_append hbefore]

/-- The path of an entry goes on from where the path of the directory leads. -/
theorem goesOn_join {other : Path} (hpath : path.isEmpty = false)
    (hbase : files.resolve path = .ok base) (hdirectory : files.get? base = some .directory)
    (hother : other.pieces ≠ []) (hrelative : other.isAbsolute = false) :
    files.GoesOn (path.join other) base other.pieces := by
  obtain ⟨before, hpieces, -, hbefore⟩ := pieces_join hpath hrelative
  obtain ⟨hempty, horigin⟩ := origin_join files hpath hother hrelative
  refine ⟨hempty, ⟨before, hpieces, ?_⟩, hdirectory⟩
  have hfollow := (resolve_eq_ok_iff.mp hbase).2
  rw [horigin]
  rcases hbefore with ⟨hsame, -⟩ | hslash
  · rwa [hsame] at hfollow
  · rw [hslash] at hfollow
    obtain ⟨next, hnext, hfiller⟩ := followAll_append_eq_ok_iff.mp hfollow
    rw [followAll_singleton_eq_ok_iff] at hfiller
    rw [follow_filler (follow_cases hfiller).1 rfl] at hfiller
    cases hfiller
    exact hnext

private theorem GoesOn.isDirectory_eq_true_iff (h : files.GoesOn path base names)
    (hnames : ∀ name ∈ names, isEntryName name = true) :
    files.isDirectory path = true ↔ files.get? (base ++ names) = some .directory := by
  rw [FileSystem.isDirectory_eq_true_iff, h.resolve_eq]
  simp only [followAll_names_eq_ok_iff hnames h.directory]
  constructor
  · rintro ⟨_, ⟨rfl, -⟩, hdirectory⟩
    exact hdirectory
  · intro hdirectory
    exact ⟨_, ⟨rfl, by rw [hdirectory]; rfl⟩, hdirectory⟩

/-- The special first piece of a path comes before the pieces that are no fillers. -/
private theorem GoesOn.exists_body (h : files.GoesOn path base pieces) (hne : pieces ≠ [])
    (hpieces : ∀ piece ∈ pieces, isFiller piece = false) :
    ∃ before, path.body = before ++ pieces ∧
      files.followAll (files.origin path) before = .ok base ∧
      (path.head?.isSome → files.get? (files.origin path) = some .directory) := by
  obtain ⟨before, hspelled, hbefore⟩ := h.spelled
  obtain ⟨first, rest, rfl⟩ := List.exists_cons_of_ne_nil hne
  have hfirst := hpieces first (List.mem_cons_self ..)
  have hspecial : ∀ {special}, isFiller special = true → path.pieces = special :: path.body →
      ∃ before, path.body = before ++ first :: rest ∧
        files.followAll (files.origin path) before = .ok base ∧
        files.get? (files.origin path) = some .directory := by
    intro special hfiller hbody
    rcases before with _ | ⟨piece, before⟩
    · rw [hspelled, List.nil_append, List.cons.injEq] at hbody
      rw [hbody.1, hfiller] at hfirst
      cases hfirst
    · rw [hspelled, List.cons_append, List.cons.injEq] at hbody
      obtain ⟨rfl, hbody⟩ := hbody
      obtain ⟨next, hnext, hrest⟩ := followAll_cons_eq_ok_iff.mp hbefore
      have hdirectory := (follow_cases hnext).1
      rw [follow_filler hdirectory hfiller] at hnext
      cases hnext
      exact ⟨before, hbody.symm, hrest, hdirectory⟩
  rcases FileSystem.spelled path with ⟨hbody, -, -⟩ | ⟨hbody, -, -⟩ | ⟨hbody, hhead, -⟩
  · obtain ⟨before, hbefore⟩ := hspecial rfl hbody
    exact ⟨before, hbefore.1, hbefore.2.1, fun _ => hbefore.2.2⟩
  · obtain ⟨before, hbefore⟩ := hspecial rfl hbody
    exact ⟨before, hbefore.1, hbefore.2.1, fun _ => hbefore.2.2⟩
  · exact ⟨before, by rw [← hbody, hspelled], hbefore, by simp [hhead]⟩

/-- A path that goes on through names is spelled like the one above it, and one name more. -/
private theorem pieces_ofBody {before : List String} (hbody : path.body = before ++ names ++ [last])
    (hnames : names ≠ []) :
    (Path.ofBody path.head? (before ++ names)).pieces ++ [last] = path.pieces ∧
      (Path.ofBody path.head? (before ++ names)).isAbsolute = path.isAbsolute := by
  obtain ⟨first, rest, hcons⟩ :=
    List.exists_cons_of_ne_nil (l := before ++ names) (by simp [hnames])
  rw [hcons] at hbody ⊢
  rcases FileSystem.spelled path with ⟨hpieces, hhead, habsolute⟩ | ⟨hpieces, hhead, hrelative⟩ |
    ⟨hpieces, hhead, hrelative⟩
  all_goals
    rw [hbody] at hpieces
    rw [hhead, hpieces]
  · rw [habsolute]
    exact ⟨rfl, isAbsolute_of_pieces rfl⟩
  · rw [hrelative]
    exact ⟨rfl, isAbsolute_of_pieces rfl⟩
  · rw [hrelative]
    refine ⟨rfl, ?_⟩
    rw [isAbsolute_of_pieces hpieces] at hrelative
    have hspelled : (Path.ofBody none (first :: rest)).pieces = first :: rest := rfl
    rw [isAbsolute_of_pieces hspelled]
    simp at hrelative
    simp [hrelative]

/-- The path above one that goes on through names goes on through the names before the last one,
unless there are none and it spells nothing. -/
private theorem GoesOn.parent? (h : files.GoesOn path base (names ++ [last]))
    (hnames : ∀ name ∈ names, isEntryName name = true) (hlast : isFiller last = false) :
    ∃ parent, path.parent? = some parent ∧
      (names = [] ∧ parent.isEmpty = true ∨ files.GoesOn parent base names) := by
  have hfillers : ∀ piece ∈ names ++ [last], isFiller piece = false := by
    rw [List.forall_mem_append]
    exact ⟨fun name hname => (isEntryName_eq_true_iff.mp (hnames name hname)).1, by simpa⟩
  obtain ⟨before, hbody, hbefore, horigin⟩ := h.exists_body (by simp) hfillers
  rw [← List.append_assoc] at hbody
  have hparent := parent?_of_body hbody hlast
  refine ⟨_, hparent, ?_⟩
  rcases List.eq_nil_or_concat' names with rfl | ⟨earlier, name, rfl⟩
  · have hresolve := resolve_parent?_of_body hbody hlast (by rwa [List.append_nil]) horigin
    rw [hparent, Option.getD_some] at hresolve
    refine hresolve.imp (⟨rfl, ·⟩) fun hresolve => ?_
    obtain ⟨hempty, hfollow⟩ := resolve_eq_ok_iff.mp hresolve
    exact ⟨hempty, ⟨_, (List.append_nil _).symm, hfollow⟩, h.directory⟩
  · right
    have hname := (isEntryName_eq_true_iff.mp (hnames name (by simp))).1
    have htrim : Path.trimEnd (before ++ (earlier ++ [name])) = before ++ (earlier ++ [name]) := by
      rw [← List.append_assoc]
      exact List.rdropWhile_concat_neg _ _ _ (by simp [hname])
    obtain ⟨hpieces, habsolute⟩ := pieces_ofBody hbody (by simp)
    obtain ⟨before', hspelled, hbefore'⟩ := h.spelled
    rw [htrim]
    rw [hspelled, ← List.append_assoc before'] at hpieces
    have hpieces := List.append_cancel_right hpieces
    refine ⟨?_, ⟨before', hpieces, by rwa [origin, habsolute]⟩, h.directory⟩
    have hne : name ≠ "" := fun hempty => by rw [hempty] at hname; cases hname
    rw [isEmpty_eq_false_iff, hpieces, ← List.append_assoc]
    refine ⟨by simp, fun hsingle => hne ?_⟩
    have hlast := congrArg List.getLast? hsingle
    rw [List.getLast?_concat] at hlast
    simpa using hlast

/-! ### Making one directory -/

private theorem GoesOn.newEntry_eq (h : files.GoesOn path base (names ++ [last]))
    (hlast : last ≠ "") :
    files.newEntry path = (files.followAll base names).bind fun location =>
      match files.get? location with
      | some .directory => if isEntryName last then .ok (location, last) else .error .taken
      | some (.file _) => .error .notDirectory
      | none => .error .missing := by
  obtain ⟨before, hpieces, hbefore⟩ := h.spelled
  have hunslashed : path.unslashed = before ++ names ++ [last] := by
    rw [Path.unslashed, hpieces, ← List.append_assoc]
    exact List.rdropWhile_concat_neg _ _ _ (by simpa using hlast)
  rw [newEntry, hunslashed, List.dropLast_concat, List.getLast?_concat, followAll_append hbefore]
  rcases files.followAll base names with fault | location
  · rfl
  · rcases hget : files.get? location with _ | _ | content <;>
      simp [bind, Except.bind, hget]

/-- A new entry of a path stands nowhere else than at the place that the names spell. -/
private theorem GoesOn.eq_of_newEntry (h : files.GoesOn path base (names ++ [last]))
    (hnames : ∀ name ∈ names, isEntryName name = true) (hlast : last ≠ "") {above : Location}
    {name : String} (hentry : files.newEntry path = .ok (above, name)) :
    above = base ++ names ∧ name = last := by
  rw [h.newEntry_eq hlast] at hentry
  rcases hway : files.followAll base names with fault | location
  · rw [hway] at hentry
    cases hentry
  · obtain ⟨rfl, hsome⟩ := (followAll_names_eq_ok_iff hnames h.directory).mp hway
    rw [hway] at hentry
    rcases hget : files.get? (base ++ names) with _ | _ | content <;>
      simp only [Except.bind, hget, reduceCtorEq] at hentry
    split at hentry <;> cases hentry
    exact ⟨rfl, rfl⟩

/-- Any entry can be put at a free place in a directory. -/
private theorem admits_of_none (habove : files.get? (base ++ names) = some .directory)
    (hlast : isEntryName last = true) (hnone : files.get? (base ++ (names ++ [last])) = none)
    (entry : Entry) : files.admits (base ++ (names ++ [last])) entry = true := by
  rw [← List.append_assoc] at hnone ⊢
  simp only [admits, hnone, List.dropLast_concat, List.getLast?_concat, habove, hlast]

section MakeDirectory

variable (h : files.GoesOn path base (names ++ [last]))
  (hnames : ∀ name ∈ names ++ [last], isEntryName name = true)

include h hnames

private theorem GoesOn.newEntry_of_directory
    (habove : files.get? (base ++ names) = some .directory) :
    files.newEntry path = .ok (base ++ names, last) := by
  rw [List.forall_mem_append] at hnames
  have hlast : isEntryName last = true := hnames.2 last (List.mem_singleton_self last)
  have hbefore : files.followAll base names = .ok (base ++ names) :=
    (followAll_names_eq_ok_iff hnames.1 h.directory).mpr ⟨rfl, by rw [habove]; rfl⟩
  rw [h.newEntry_eq (ne_empty_of_isEntryName hlast), hbefore]
  simp [Except.bind, habove, hlast]

/-- A directory is made below another one, unless something stands there. -/
private theorem GoesOn.makeDirectory_of_directory
    (habove : files.get? (base ++ names) = some .directory) :
    files.makeDirectory path =
      if (files.get? (base ++ (names ++ [last]))).isSome then .error .taken
      else .ok (files.put (base ++ (names ++ [last])) .directory) := by
  rw [makeDirectory, h.newEntry_of_directory hnames habove]
  simp only [bind, Except.bind, List.append_assoc]

private theorem GoesOn.makeDirectory_of_blocked (hblocked : files.Blocked base names) :
    files.makeDirectory path = .error .notDirectory := by
  rw [List.forall_mem_append] at hnames
  have hlast : isEntryName last = true := hnames.2 last (List.mem_singleton_self last)
  rw [makeDirectory, h.newEntry_eq (ne_empty_of_isEntryName hlast)]
  rcases hget : files.get? (base ++ names) with _ | _ | content
  · rw [(followAll_of_none hnames.1 h.directory hget).1 hblocked]
    rfl
  · exact absurd hblocked (not_blocked_of_directory hget)
  · rw [(followAll_names_eq_ok_iff hnames.1 h.directory).mpr ⟨rfl, by rw [hget]; rfl⟩]
    simp [bind, Except.bind, hget]

private theorem GoesOn.makeDirectory_of_none (hnone : files.get? (base ++ names) = none)
    (hfree : ¬ files.Blocked base names) : files.makeDirectory path = .error .missing := by
  rw [List.forall_mem_append] at hnames
  have hlast : isEntryName last = true := hnames.2 last (List.mem_singleton_self last)
  rw [makeDirectory, h.newEntry_eq (ne_empty_of_isEntryName hlast),
    (followAll_of_none hnames.1 h.directory hnone).2 hfree]
  rfl

end MakeDirectory

/-! ### Making all directories on the way -/

/-- Whether a file system is another one with directories on the way from a place through names. -/
structure MadeThrough (before : FileSystem) (base : Location) (names : List String)
    (after : FileSystem) : Prop where
  workingDirectory : after.workingDirectory = before.workingDirectory
  way : ∀ {passed}, passed <+: names → after.get? (base ++ passed) = some .directory
  other : ∀ {location}, (∀ passed, passed <+: names → location ≠ base ++ passed) →
    after.get? location = before.get? location

private theorem madeThrough_self (h : files.get? (base ++ names) = some .directory) :
    files.MadeThrough base names files :=
  ⟨rfl, fun hpassed => get?_of_isPrefix hpassed h, fun _ => rfl⟩

/-- A place is on no way that ends before it. -/
private theorem append_ne_of_isPrefix {passed : List String} (hpassed : passed <+: names) :
    base ++ (names ++ [last]) ≠ base ++ passed := by
  intro heq
  have hlength := (List.append_cancel_left heq ▸ hpassed).length_le
  rw [List.length_append, List.length_singleton] at hlength
  omega

theorem MadeThrough.get?_concat {after : FileSystem} (h : files.MadeThrough base names after) :
    after.get? (base ++ (names ++ [last])) = files.get? (base ++ (names ++ [last])) :=
  h.other fun _ => append_ne_of_isPrefix

/-- One directory more, at the end of the way. -/
theorem MadeThrough.put {after : FileSystem} (h : files.MadeThrough base names after)
    (hlast : isEntryName last = true) (hfree : after.get? (base ++ (names ++ [last])) = none) :
    files.MadeThrough base (names ++ [last])
      (after.put (base ++ (names ++ [last])) .directory) := by
  have hadmits := admits_of_none (h.way List.prefix_rfl) hlast hfree .directory
  refine ⟨by rw [put_workingDirectory, h.workingDirectory], fun {passed} hpassed => ?_,
    fun {location} hother => ?_⟩
  · rcases List.prefix_concat_iff.mp hpassed with rfl | hpassed
    · exact get?_put_self hadmits
    · rw [get?_put_of_ne _ (append_ne_of_isPrefix hpassed).symm, h.way hpassed]
  · rw [get?_put_of_ne _ (hother _ List.prefix_rfl)]
    exact h.other fun passed hpassed => hother passed (hpassed.trans (List.prefix_append ..))

/-- Where no file blocks the way, making directories changes no entry. -/
private theorem MadeThrough.extends_of_not_blocked {after : FileSystem}
    (h : files.MadeThrough base names after) (hfree : ¬ files.Blocked base names) :
    files.Extends after := by
  refine ⟨h.workingDirectory, fun {location entry} hentry => ?_⟩
  by_cases hway : ∃ passed, passed <+: names ∧ location = base ++ passed
  · obtain ⟨passed, hpassed, rfl⟩ := hway
    cases entry with
    | directory => exact h.way hpassed
    | file content => exact absurd ⟨passed, content, hpassed, hentry⟩ hfree
  · rw [h.other fun passed hpassed heq => hway ⟨passed, hpassed, heq⟩, hentry]

theorem finish_error (files : FileSystem) (path : Path) (fault : Fault) :
    makeDirectories.finish files path (.error fault) =
      (files, if files.isDirectory path then none else some fault) := rfl

section Go

variable (h : files.GoesOn path base (names ++ [last]))
  (hnames : ∀ name ∈ names ++ [last], isEntryName name = true)

include h hnames

/-- A file on the way is met before the last name. -/
private theorem GoesOn.go_of_blocked (hblocked : files.Blocked base names) (fuel : Nat) :
    makeDirectories.go (fuel + 1) files path = (files, some .notDirectory) := by
  have hnot : files.isDirectory path ≠ true := fun hthere =>
    not_blocked_of_directory ((h.isDirectory_eq_true_iff hnames).mp hthere)
      (hblocked.mono (List.prefix_append ..))
  rw [makeDirectories.go, h.nonempty, h.makeDirectory_of_blocked hnames hblocked]
  simp [finish_error, hnot]

/-- Below a directory, only the last directory may be missing. -/
private theorem GoesOn.go_of_directory (habove : files.get? (base ++ names) = some .directory)
    (fuel : Nat) :
    (files.Blocked base (names ++ [last]) →
      ∃ fault, makeDirectories.go (fuel + 1) files path = (files, some fault)) ∧
    (¬ files.Blocked base (names ++ [last]) →
      ∃ after, makeDirectories.go (fuel + 1) files path = (after, none) ∧
        files.MadeThrough base (names ++ [last]) after) := by
  have hlast : isEntryName last = true := hnames last (by simp)
  have hdirectory := h.isDirectory_eq_true_iff hnames
  simp only [blocked_concat_iff, not_blocked_of_directory habove, false_or]
  rw [makeDirectories.go, h.nonempty, h.makeDirectory_of_directory hnames habove]
  rcases hget : files.get? (base ++ (names ++ [last])) with _ | _ | content
  · exact ⟨by simp, fun _ => ⟨_, by simp, (madeThrough_self habove).put hlast hget⟩⟩
  · have hthere := hdirectory.mpr hget
    exact ⟨by simp, fun _ => ⟨files, by simp [finish_error, hthere], madeThrough_self hget⟩⟩
  · have hnot : files.isDirectory path ≠ true := fun hthere => by
      rw [hdirectory.mp hthere] at hget
      cases hget
    exact ⟨fun _ => ⟨.taken, by simp [finish_error, hnot]⟩, by simp⟩

/-- Where something above is missing, the directories above are made first, and then the last
one. -/
private theorem GoesOn.go_of_none {parent : Path} {after : FileSystem} {fuel : Nat}
    (habove : files.get? (base ++ names) = none) (hfree : ¬ files.Blocked base names)
    (hparent : path.parent? = some parent)
    (hgo : makeDirectories.go fuel files parent = (after, none))
    (hmade : files.MadeThrough base names after) :
    ∃ after', makeDirectories.go (fuel + 1) files path = (after', none) ∧
      files.MadeThrough base (names ++ [last]) after' := by
  have hnone : files.get? (base ++ (names ++ [last])) = none := by
    rw [← List.append_assoc, ← Option.not_isSome_iff_eq_none]
    intro hsome
    rw [get?_of_append (by simp) hsome] at habove
    cases habove
  have hnone' : after.get? (base ++ (names ++ [last])) = none := by
    rw [hmade.get?_concat, hnone]
  have hafter := h.grows (hmade.extends_of_not_blocked hfree).grows
  refine ⟨_, ?_, hmade.put (hnames last (by simp)) hnone'⟩
  rw [makeDirectories.go, h.nonempty, h.makeDirectory_of_none hnames habove hfree]
  simp only [Bool.false_eq_true, if_false, hparent, hgo]
  rw [hafter.makeDirectory_of_directory hnames (hmade.way List.prefix_rfl)]
  simp [hnone', makeDirectories.finish]

end Go

/-- Making the directories on a way fails when a file blocks it, and otherwise makes them all. -/
theorem go_of_goesOn {fuel : Nat} (hfuel : names.length < fuel)
    (h : files.GoesOn path base names) (hnames : ∀ name ∈ names, isEntryName name = true) :
    (files.Blocked base names →
      ∃ fault, makeDirectories.go fuel files path = (files, some fault)) ∧
    (¬ files.Blocked base names →
      ∃ after, makeDirectories.go fuel files path = (after, none) ∧
        files.MadeThrough base names after) := by
  induction names using List.reverseRecOn generalizing path fuel with
  | nil =>
    obtain ⟨fuel, rfl⟩ := Nat.exists_eq_succ_of_ne_zero (Nat.ne_of_gt hfuel)
    have hbase : files.get? (base ++ []) = some .directory := by
      rw [List.append_nil, h.directory]
    rw [go_of_isDirectory fuel ((h.isDirectory_eq_true_iff hnames).mpr hbase)]
    exact ⟨fun hblocked => absurd hblocked (not_blocked_of_directory hbase),
      fun _ => ⟨files, rfl, madeThrough_self hbase⟩⟩
  | append_singleton names last ih =>
    obtain ⟨fuel, rfl⟩ := Nat.exists_eq_succ_of_ne_zero (Nat.ne_of_gt (Nat.zero_lt_of_lt hfuel))
    rw [List.length_append, List.length_singleton] at hfuel
    have hbefore : ∀ name ∈ names, isEntryName name = true := fun name hname =>
      hnames name (List.mem_append_left _ hname)
    by_cases hblocked : files.Blocked base names
    · exact ⟨fun _ => ⟨_, h.go_of_blocked hnames hblocked fuel⟩, fun hfree =>
        absurd (hblocked.mono (List.prefix_append ..)) hfree⟩
    rcases habove : files.get? (base ++ names) with _ | _ | content
    · have hlast := (isEntryName_eq_true_iff.mp (hnames last (by simp))).1
      obtain ⟨parent, hparent, hgoes⟩ := h.parent? hbefore hlast
      have hgoes : files.GoesOn parent base names := hgoes.resolve_left fun hnil => by
        rw [hnil.1, List.append_nil, h.directory] at habove
        cases habove
      obtain ⟨after, hgo, hmade⟩ := (ih (Nat.lt_of_succ_lt_succ hfuel) hgoes hbefore).2 hblocked
      have hfree : ¬ files.Blocked base (names ++ [last]) := by
        rw [blocked_concat_iff, ← List.append_assoc]
        rintro (hb | ⟨content, hfile⟩)
        · exact hblocked hb
        · rw [(get?_above hfile).1] at habove
          cases habove
      exact ⟨fun hb => absurd hb hfree,
        fun _ => h.go_of_none hnames habove hblocked hparent hgo hmade⟩
    · exact h.go_of_directory hnames habove fuel
    · exact absurd ⟨names, content, List.prefix_rfl, habove⟩ hblocked

/-- The directories on the way to an entry are made all or not at all: not if a file blocks it. -/
theorem GoesOn.makeDirectories_parent? (h : files.GoesOn path base (names ++ [last]))
    (hnames : ∀ name ∈ names, isEntryName name = true) (hlast : isFiller last = false) :
    (files.Blocked base names →
      ∃ fault, files.makeDirectories (path.parent?.getD .empty) = (files, some fault)) ∧
    (¬ files.Blocked base names →
      ∃ after, files.makeDirectories (path.parent?.getD .empty) = (after, none) ∧
        files.MadeThrough base names after) := by
  obtain ⟨parent, hparent, hgoes⟩ := h.parent? hnames hlast
  rw [hparent, Option.getD_some]
  rcases hgoes with ⟨rfl, hempty⟩ | hgoes
  · have hbase : files.get? (base ++ []) = some .directory := by
      rw [List.append_nil, h.directory]
    refine ⟨fun hblocked => absurd hblocked (not_blocked_of_directory hbase), fun _ =>
      ⟨files, ?_, madeThrough_self hbase⟩⟩
    rw [makeDirectories, makeDirectories.go, if_pos hempty]
  · obtain ⟨before, hpieces, -⟩ := hgoes.spelled
    refine go_of_goesOn ?_ hgoes hnames
    rw [hpieces, List.length_append]
    omega

/-! ### Writing a file -/

/-- A file is written nowhere else than at the place that the names spell. -/
theorem GoesOn.eq_of_writeFile {after : FileSystem} {content : ByteArray}
    (h : files.GoesOn path base names) (hne : names ≠ [])
    (hnames : ∀ name ∈ names, isEntryName name = true)
    (hwrite : files.writeFile path content = .ok after) :
    after = files.put (base ++ names) (.file content) := by
  rcases writeFile_cases hwrite with ⟨place, hplace, rfl⟩ | ⟨above, name, hentry, -, rfl⟩
  · rw [h.resolve_eq] at hplace
    rw [((followAll_names_eq_ok_iff hnames h.directory).mp hplace).1]
  · obtain ⟨earlier, last, rfl⟩ := (List.eq_nil_or_concat' names).resolve_left hne
    rw [List.forall_mem_append] at hnames
    have hlast := ne_empty_of_isEntryName (hnames.2 last (List.mem_singleton_self last))
    obtain ⟨rfl, rfl⟩ := h.eq_of_newEntry hnames.1 hlast hentry
    rw [List.append_assoc]

/-- A file is written in its directory, unless a directory stands in its place. -/
theorem GoesOn.writeFile_eq_ok (h : files.GoesOn path base (names ++ [last]))
    (hnames : ∀ name ∈ names ++ [last], isEntryName name = true)
    (habove : files.get? (base ++ names) = some .directory)
    (hnot : files.get? (base ++ (names ++ [last])) ≠ some .directory) (content : ByteArray) :
    files.writeFile path content =
        .ok (files.put (base ++ (names ++ [last])) (.file content)) ∧
      files.admits (base ++ (names ++ [last])) (.file content) = true := by
  have hlast : isEntryName last = true := hnames last (by simp)
  rcases hget : files.get? (base ++ (names ++ [last])) with _ | _ | old
  · have hmissing : files.resolve path = .error .missing := by
      rw [h.resolve_eq]
      refine (followAll_of_none hnames h.directory hget).2 fun hblocked => ?_
      simp [blocked_concat_iff, not_blocked_of_directory habove, hget] at hblocked
    obtain ⟨before, hpieces, -⟩ := h.spelled
    have hslash : path.pieces.getLast? ≠ some "" := by
      rw [hpieces, ← List.append_assoc, List.getLast?_concat]
      simpa using ne_empty_of_isEntryName hlast
    refine ⟨?_, admits_of_none habove hlast hget _⟩
    rw [writeFile, hmissing]
    simp [h.nonempty, h.newEntry_of_directory hnames habove, bind, Except.bind, hget, hslash]
  · exact absurd hget hnot
  · refine ⟨?_, by simp [admits, hget]⟩
    have hresolve : files.resolve path = .ok (base ++ (names ++ [last])) := by
      rw [h.resolve_eq]
      exact (followAll_names_eq_ok_iff hnames h.directory).mpr ⟨rfl, by rw [hget]; rfl⟩
    exact (writeFile_of_file content hresolve hget).1

/-- A file is written neither in the place of a directory nor at `..`. -/
theorem GoesOn.writeFile_eq_error (h : files.GoesOn path base (names ++ [last]))
    (hnames : ∀ name ∈ names, isEntryName name = true)
    (hlast : last = ".." ∨ isEntryName last = true ∧
      files.get? (base ++ (names ++ [last])) = some .directory)
    (habove : files.get? (base ++ names) = some .directory) (content : ByteArray) :
    files.writeFile path content = .error .isDirectory := by
  have hbefore : files.followAll base names = .ok (base ++ names) :=
    (followAll_names_eq_ok_iff hnames h.directory).mpr ⟨rfl, by rw [habove]; rfl⟩
  obtain ⟨place, hplace, hdirectory⟩ : ∃ place,
      files.resolve path = .ok place ∧ files.get? place = some .directory := by
    rw [h.resolve_eq, followAll_append hbefore, followAll_singleton]
    rcases hlast with rfl | ⟨hname, hdirectory⟩
    · exact ⟨_, follow_above habove, get?_dropLast habove⟩
    · rw [← List.append_assoc] at hdirectory
      exact ⟨_, follow_name habove hname (by rw [hdirectory]; rfl), hdirectory⟩
  rw [writeFile, hplace]
  simp only [hdirectory]

/-! ### All that has been made and written -/

/-- Whether a file system is another one with directories made at some places and files written at
others. -/
structure Overlay (before : FileSystem) (made : Location → Prop)
    (written : Location → ByteArray → Prop) (after : FileSystem) : Prop where
  directory : ∀ {location}, made location → after.get? location = some .directory
  file : ∀ {location content}, written location content →
    after.get? location = some (.file content)
  other : ∀ {location}, ¬ made location → (∀ content, ¬ written location content) →
    after.get? location = before.get? location

theorem overlay_self (files : FileSystem) :
    files.Overlay (fun _ => False) (fun _ _ => False) files :=
  ⟨False.elim, False.elim, fun _ _ => rfl⟩

/-- The directories on a way are made besides what has been made and written. -/
theorem Overlay.madeThrough {made : Location → Prop} {written : Location → ByteArray → Prop}
    {before after : FileSystem} (h : files.Overlay made written before)
    (hmade : before.MadeThrough base names after) (hfree : ¬ before.Blocked base names) :
    files.Overlay (fun location => made location ∨ ∃ passed, passed <+: names ∧
      location = base ++ passed) written after := by
  have hextends := hmade.extends_of_not_blocked hfree
  refine ⟨?_, fun hfile => hextends.entry (h.file hfile), fun {location} hnot hfile => ?_⟩
  · rintro location (hold | ⟨passed, hpassed, rfl⟩)
    · exact hextends.entry (h.directory hold)
    · exact hmade.way hpassed
  · rw [not_or, not_exists] at hnot
    rw [hmade.other fun passed hpassed heq => hnot.2 passed ⟨hpassed, heq⟩, h.other hnot.1 hfile]

/-- A file is written at a place besides what has been made and written at other places. -/
theorem Overlay.put {made : Location → Prop} {written : Location → ByteArray → Prop}
    {before : FileSystem} (h : files.Overlay made written before) {place : Location}
    {content : ByteArray} (hadmits : before.admits place (.file content) = true)
    (hfree : ∀ old, ¬ written place old) :
    files.Overlay made (fun location content' => written location content' ∨
      location = place ∧ content' = content) (before.put place (.file content)) := by
  refine ⟨fun {location} hmade => ?_, ?_, fun {location} hnot hfile => ?_⟩
  · rw [get?_put_of_ne, h.directory hmade]
    rintro rfl
    exact get?_ne_directory_of_admits hadmits (h.directory hmade)
  · rintro location content' (hold | ⟨rfl, rfl⟩)
    · rw [get?_put_of_ne, h.file hold]
      rintro rfl
      exact hfree _ hold
    · exact get?_put_self hadmits
  · rw [get?_put_of_ne, h.other hnot fun content' hold => hfile content' (.inl hold)]
    rintro rfl
    exact hfile content (.inr ⟨rfl, rfl⟩)

/-- What has been made and written determines what stands at each place. -/
theorem Overlay.get?_eq {made : Location → Prop} {written : Location → ByteArray → Prop}
    {first second : FileSystem} (h : files.Overlay made written first)
    (h' : files.Overlay made written second) : first.get? = second.get? := by
  funext location
  by_cases hmade : made location
  · rw [h.directory hmade, h'.directory hmade]
  · by_cases hwritten : ∃ content, written location content
    · obtain ⟨content, hcontent⟩ := hwritten
      rw [h.file hcontent, h'.file hcontent]
    · rw [h.other hmade (not_exists.mp hwritten), h'.other hmade (not_exists.mp hwritten)]

end IconMarkup.Files.FileSystem
