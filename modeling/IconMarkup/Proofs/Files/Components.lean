import IconMarkup.Proofs.Files.Resolution

/-!
# Components of paths

The components of a path determine what is left of it below another one. The main fact is
`inner_of_stripPrefix?`: what is left of a path below a directory, when nothing but names comes
after the directory, goes down only. `Path.Descends` is what an output name needs to lead to the
same file however many directories are made: it is relative, and no `..` comes before its last
piece.
-/

namespace IconMarkup.Files

namespace Path

/-- Whether a path is relative and goes down only, though perhaps not at its last piece. -/
structure Descends (path : Path) : Prop where
  nonempty : path.pieces ≠ []
  relative : path.isAbsolute = false
  noAbove : ".." ∉ path.pieces.dropLast

/-- Whether a path has no special first component and no `..`. -/
structure Inner (path : Path) : Prop where
  nonempty : path.pieces ≠ []
  noHead : path.head? = none
  noAbove : ".." ∉ path.pieces

/-- The component that the first of several pieces stands for. -/
def firstComponent? (first : String) : Option Component :=
  if first = "" then some .root
  else if first = "." then some .here
  else Component.ofPiece? first

end Path

open FileSystem Files.Path

variable {path base other rel : Path} {first name : String} {rest names before : List String}

theorem ofPiece?_of_isEntryName (h : isEntryName name = true) :
    Component.ofPiece? name = some (.name name) := by
  obtain ⟨hfiller, habove⟩ := isEntryName_eq_true_iff.mp h
  simp [Component.ofPiece?, hfiller, habove]

theorem head?_of_not_isFiller (h : path.pieces = first :: rest) (hfirst : isFiller first = false) :
    path.head? = none := by
  rw [isFiller, Bool.or_eq_false_iff, beq_eq_false_iff_ne, beq_eq_false_iff_ne] at hfirst
  rw [head?_of_pieces h, if_neg fun hroot => hfirst.1 hroot.1, if_neg hfirst.2]

private theorem components_of_pieces (hempty : path.isEmpty = false)
    (h : path.pieces = first :: rest) :
    path.components = (firstComponent? first).toList ++ rest.filterMap Component.ofPiece? := by
  have hne := (isEmpty_eq_false_iff.mp hempty).2
  rw [components, body, head?_of_pieces h, h, firstComponent?]
  by_cases hroot : first = ""
  · have hrest : rest ≠ [] := by
      rintro rfl
      exact hne (by rw [h, hroot])
    simp [hroot, hrest]
  · by_cases hhere : first = "."
    · simp [hhere]
    · simp only [hroot, hhere, false_and, if_false]
      rcases hpiece : Component.ofPiece? first with _ | component <;> simp [hpiece]

private theorem firstComponent?_ne_none (first : String) : firstComponent? first ≠ none := by
  simp only [firstComponent?, Component.ofPiece?, isFiller]
  split
  · simp
  · split
    · simp
    · rename_i hroot hhere
      simp [hroot, hhere]
      split <;> simp

/-- Every path but the empty one has a component. -/
theorem components_ne_nil (hempty : path.isEmpty = false) : path.components ≠ [] := by
  obtain ⟨first, rest, h⟩ := List.exists_cons_of_ne_nil (isEmpty_eq_false_iff.mp hempty).1
  obtain ⟨component, hfirst⟩ := Option.ne_none_iff_exists'.mp (firstComponent?_ne_none first)
  simp [components_of_pieces hempty h, hfirst]

/-- A path of entry names leads inside. -/
theorem inner_of_names (hne : names ≠ []) (hnames : ∀ name ∈ names, isEntryName name = true) :
    (⟨names⟩ : Path).Inner := by
  obtain ⟨first, rest, rfl⟩ := List.exists_cons_of_ne_nil hne
  have hfirst := (isEntryName_eq_true_iff.mp (hnames first (List.mem_cons_self ..))).1
  refine ⟨hne, head?_of_not_isFiller rfl hfirst, fun habove => ?_⟩
  exact (isEntryName_eq_true_iff.mp (hnames ".." habove)).2 rfl

/-- A path that leads inside is relative. -/
theorem Path.Inner.relative (h : path.Inner) : path.isAbsolute = false := by
  rcases spelled path with ⟨-, hhead, -⟩ | ⟨-, -, hrelative⟩ | ⟨-, -, hrelative⟩
  · rw [h.noHead] at hhead
    cases hhead
  · exact hrelative
  · exact hrelative

theorem filterMap_ofPiece?_names (hnames : ∀ name ∈ names, isEntryName name = true) :
    names.filterMap Component.ofPiece? = names.map .name := by
  induction names with
  | nil => rfl
  | cons name names ih =>
    rw [List.forall_mem_cons] at hnames
    rw [List.filterMap_cons_some (ofPiece?_of_isEntryName hnames.1), ih hnames.2, List.map_cons]

/-- Names joined to a path are further components. -/
theorem components_join_names (hempty : path.isEmpty = false) (hne : names ≠ [])
    (hnames : ∀ name ∈ names, isEntryName name = true) :
    (path.join ⟨names⟩).isEmpty = false ∧
      (path.join ⟨names⟩).components = path.components ++ names.map .name := by
  obtain ⟨before, hpieces, hbefore, hstart⟩ :=
    pieces_join hempty (inner_of_names hne hnames).relative
  obtain ⟨first, rest, rfl⟩ := List.exists_cons_of_ne_nil hbefore
  have hjoined : (path.join ⟨names⟩).isEmpty = false := by
    rw [isEmpty_eq_false_iff, hpieces]
    simp [hne]
  refine ⟨hjoined, ?_⟩
  have hpath : path.components =
      (firstComponent? first).toList ++ rest.filterMap Component.ofPiece? := by
    rcases hstart with ⟨hsame, -⟩ | hslash
    · exact components_of_pieces hempty hsame
    · rw [List.cons_append] at hslash
      rw [components_of_pieces hempty hslash, List.filterMap_append]
      simp [Component.ofPiece?, isFiller]
  rw [List.cons_append] at hpieces
  rw [components_of_pieces hjoined hpieces, hpath, List.filterMap_append,
    filterMap_ofPiece?_names hnames, List.append_assoc]

/-- A name joined to a path is one more component. -/
theorem components_join (hempty : path.isEmpty = false) (hname : isEntryName name = true) :
    (path.join ⟨[name]⟩).isEmpty = false ∧
      (path.join ⟨[name]⟩).components = path.components ++ [.name name] :=
  components_join_names hempty (by simp) (by simpa using hname)

/-- Joining names one after another adds one component each. -/
theorem components_foldl_join (hempty : path.isEmpty = false)
    (hnames : ∀ name ∈ names, isEntryName name = true) :
    (names.foldl (fun path name => path.join ⟨[name]⟩) path).components =
      path.components ++ names.map .name := by
  induction names generalizing path with
  | nil => simp
  | cons name names ih =>
    obtain ⟨hjoined, hcomponents⟩ := components_join hempty (hnames name (List.mem_cons_self ..))
    have hrest := ih hjoined fun other hother => hnames other (List.mem_cons_of_mem _ hother)
    rw [List.foldl_cons, hrest, hcomponents, List.append_assoc]
    rfl

/-! ### Below a directory -/

private theorem filterMap_afterComponents (count : Nat) (pieces : List String) :
    (afterComponents count pieces).filterMap Component.ofPiece? =
      (pieces.filterMap Component.ofPiece?).drop count := by
  induction pieces generalizing count with
  | nil => cases count <;> simp [afterComponents]
  | cons piece rest ih =>
    cases count with
    | zero => simp [afterComponents]
    | succ count =>
      rw [afterComponents]
      split
      · rename_i hfiller
        rw [ih, List.filterMap_cons_none (by simp [Component.ofPiece?, hfiller])]
      · rename_i hfiller
        obtain ⟨component, hpiece⟩ : ∃ component, Component.ofPiece? piece = some component := by
          rw [Component.ofPiece?, if_neg hfiller]
          split <;> exact ⟨_, rfl⟩
        rw [ih, List.filterMap_cons_some hpiece, List.drop_succ_cons]

/-- What counts in the pieces that `stripPrefix?` leaves are the components after the first ones. -/
theorem filterMap_left (path : Path) {count : Nat} (h : count ≠ 0) :
    (afterComponents (count - path.head?.toList.length) path.body).filterMap
        Component.ofPiece? = path.components.drop count := by
  have hhead : path.head?.toList.length ≤ count := by
    rcases path.head? with _ | component
    · exact Nat.zero_le _
    · exact Nat.one_le_iff_ne_zero.mpr h
  rw [filterMap_afterComponents, components, List.drop_append, List.drop_eq_nil_of_le hhead,
    List.nil_append]

private theorem above_notMem_of_filterMap {pieces : List String}
    (h : pieces.filterMap Component.ofPiece? = names.map .name) : ".." ∉ pieces := by
  intro hmem
  have habove : Component.above ∈ pieces.filterMap Component.ofPiece? :=
    List.mem_filterMap.mpr ⟨"..", hmem, rfl⟩
  rw [h] at habove
  simp at habove

/-- Pieces without `..` spell a path that goes down only once the fillers at both ends are gone. -/
private theorem inner_ofBody {pieces : List String} (h : ".." ∉ pieces) :
    (ofBody none (trimEnd (pieces.dropWhile isFiller))).Inner := by
  have hstarts : trimEnd (pieces.dropWhile isFiller) <+: pieces.dropWhile isFiller :=
    List.rdropWhile_prefix _ _
  have hno : ".." ∉ trimEnd (pieces.dropWhile isFiller) := fun hmem =>
    h ((List.dropWhile_sublist _).subset (hstarts.subset hmem))
  have hnot := List.head?_dropWhile_not isFiller pieces
  rcases htrim : trimEnd (pieces.dropWhile isFiller) with _ | ⟨first, rest⟩
  · exact ⟨by simp [ofBody, empty], rfl, by simp [ofBody, empty]⟩
  · rw [htrim] at hno hstarts
    obtain ⟨more, hmore⟩ := hstarts
    rw [← hmore] at hnot
    have hpieces : (ofBody none (first :: rest)).pieces = first :: rest := rfl
    exact ⟨by simp [ofBody], head?_of_not_isFiller hpieces hnot, hno⟩

/-- What is left of a path below a directory goes down only, if nothing but names comes after the
directory. -/
theorem inner_of_stripPrefix? (hbase : base.isEmpty = false)
    (hnames : path.components = base.components ++ names.map .name)
    (h : path.stripPrefix? base = some rel) : rel.Inner := by
  have hne := components_ne_nil hbase
  have hnonempty : base.components.isEmpty = false := by
    simpa using hne
  simp only [stripPrefix?, hnonempty, Bool.false_eq_true, if_false,
    Option.ite_none_right_eq_some, Option.some.injEq] at h
  have hleft := filterMap_left path (fun hzero => hne (List.eq_nil_of_length_eq_zero hzero))
  rw [hnames, List.drop_left] at hleft
  rw [← h.2]
  exact inner_ofBody (above_notMem_of_filterMap hleft)

/-! ### Output names -/

/-- A relative path stays relative when its last pieces are replaced by another one. -/
private theorem isAbsolute_dropLast_concat {pieces : List String} (h : path.isAbsolute = false)
    (hstarts : pieces <+: path.pieces) (last : String) :
    (⟨pieces.dropLast ++ [last]⟩ : Path).isAbsolute = false := by
  rcases pieces with _ | ⟨first, _ | ⟨second, more⟩⟩
  · exact isAbsolute_singleton last
  · exact isAbsolute_singleton last
  · obtain ⟨rest, hrest⟩ := hstarts
    rw [isAbsolute_of_pieces hrest.symm] at h
    have hfirst : first ≠ "" := by simpa using h
    rw [List.dropLast_cons_cons, List.cons_append, isAbsolute_of_pieces rfl]
    simp [hfirst]

/-- Another extension makes nothing go up but the last piece. -/
theorem Path.Inner.descends_withExtension (h : path.Inner) (extension : String) :
    (path.withExtension extension).Descends := by
  rw [withExtension]
  split
  · rename_i name _
    have hbody : path.body = path.pieces := by
      rw [body, h.noHead]
      rfl
    have hof : ofBody path.head? ((trimEnd path.body).dropLast ++
        [renameExtension name extension]) =
          ⟨(trimEnd path.pieces).dropLast ++ [renameExtension name extension]⟩ := by
      rw [h.noHead, hbody]
      cases (trimEnd path.pieces).dropLast <;> rfl
    have hstarts : trimEnd path.pieces <+: path.pieces := List.rdropWhile_prefix _ _
    rw [hof]
    refine ⟨by simp, isAbsolute_dropLast_concat h.relative hstarts _, fun hmem => h.noAbove ?_⟩
    rw [List.dropLast_concat] at hmem
    exact hstarts.subset (List.dropLast_subset _ hmem)
  · exact ⟨h.nonempty, h.relative, fun hmem => h.noAbove (List.dropLast_subset _ hmem)⟩

theorem inner_of_isEntryName (h : isEntryName name = true) : (⟨[name]⟩ : Path).Inner :=
  inner_of_names (by simp) (by simpa using h)

/-- A path that leads to a file has a file name. -/
theorem exists_fileName?_of_isFile {files : FileSystem} (h : files.isFile path = true) :
    ∃ name, path.fileName? = some name ∧ isEntryName name = true := by
  obtain ⟨place, content, hresolve, hfile⟩ := isFile_eq_true_iff.mp h
  obtain ⟨before, name, -, hbody, hname, -⟩ := exists_body_of_file hresolve hfile
  refine ⟨name, ?_, hname⟩
  have hcomponents : path.components =
      path.head?.toList ++ before.filterMap Component.ofPiece? ++ [.name name] := by
    rw [components, hbody, List.filterMap_append, List.append_assoc]
    simp [ofPiece?_of_isEntryName hname]
  rw [fileName?, hcomponents, List.getLast?_concat]

end IconMarkup.Files
