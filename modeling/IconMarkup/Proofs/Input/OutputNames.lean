import IconMarkup.Proofs.Files.Extensions
import IconMarkup.Proofs.Input.Collected

/-!
# Output names

How the output of a collected input is named. A document found below a directory keeps the names
that lead to it from there (`stripPrefix?_foldl_join`), and a document that was named itself keeps
its file name; the last name gets another extension. So an output name is names of entries only
(`Collected.straight_outputName`), but for a last piece `..`, which is what another extension makes
of a name such as `..md`.
-/

namespace IconMarkup

open Files Files.FileSystem Files.Path

/-- Whether a path is names of entries, though the last piece may also be `..`. -/
def Files.Path.Straight (path : Path) : Prop :=
  ∃ names last, path.pieces = names ++ [last] ∧ (∀ name ∈ names, isEntryName name = true) ∧
    (isEntryName last = true ∨ last = "..")

variable {path : Path} {names : List String} {name last : String}

/-- Neither an entry name nor the step upwards is left out of a path. -/
theorem isFiller_of_last (h : isEntryName last = true ∨ last = "..") : isFiller last = false := by
  rcases h with hentry | rfl
  · exact (isEntryName_eq_true_iff.mp hentry).1
  · rfl

/-! ### Below a directory -/

/-- The path of an entry below a directory ends in the names that lead to it. -/
private theorem exists_pieces_foldl_join (hempty : path.isEmpty = false)
    (hnames : ∀ name ∈ names, isEntryName name = true) :
    (names.foldl (fun path name => path.join ⟨[name]⟩) path).isEmpty = false ∧
      ∃ before, (names.foldl (fun path name => path.join ⟨[name]⟩) path).pieces =
        before ++ names := by
  induction names using List.reverseRecOn with
  | nil => exact ⟨hempty, path.pieces, (List.append_nil _).symm⟩
  | append_singleton names last ih =>
    rw [List.forall_mem_append] at hnames
    obtain ⟨hjoined, before, hbefore⟩ := ih hnames.1
    rw [List.foldl_concat]
    generalize names.foldl (fun path name => path.join ⟨[name]⟩) path = joined at hjoined hbefore ⊢
    refine ⟨(components_join hjoined (hnames.2 last (List.mem_singleton_self last))).1, ?_⟩
    obtain ⟨start, hpieces, -, hstart⟩ := pieces_join hjoined (isAbsolute_singleton last)
    rcases hstart with ⟨hsame, -⟩ | hslash
    · exact ⟨before, by rw [hpieces, ← hsame, hbefore, List.append_assoc]⟩
    · -- only the path of the directory itself may end in a slash
      rcases List.eq_nil_or_concat' names with rfl | ⟨earlier, name, rfl⟩
      · exact ⟨start, hpieces⟩
      · rw [hbefore, ← List.append_assoc] at hslash
        obtain ⟨-, hlast⟩ := List.append_inj' hslash rfl
        cases hlast
        cases hnames.1 "" (by simp)

private theorem afterComponents_suffix (count : Nat) (pieces : List String) :
    afterComponents count pieces <:+ pieces := by
  induction pieces generalizing count with
  | nil => cases count <;> exact List.suffix_rfl
  | cons piece rest ih =>
    cases count with
    | zero => exact List.suffix_rfl
    | succ count =>
      rw [afterComponents]
      split <;> exact (ih _).trans (List.suffix_cons ..)

private theorem body_suffix (path : Path) : path.body <:+ path.pieces := by
  rw [Path.body]
  split
  · exact List.tail_suffix _
  · exact List.suffix_rfl

private theorem dropWhile_isFiller_names (hnames : ∀ name ∈ names, isEntryName name = true) :
    names.dropWhile isFiller = names := by
  cases names with
  | nil => rfl
  | cons name names =>
    have hname := (isEntryName_eq_true_iff.mp (hnames name (List.mem_cons_self ..))).1
    rw [List.dropWhile_cons_of_neg (by simp [hname])]

/-- What ends a list of pieces like names do, and means what they mean, is the names after some
fillers. -/
private theorem dropWhile_isFiller_eq {left before : List String}
    (hnames : ∀ name ∈ names, isEntryName name = true) (hleft : left <:+ before ++ names)
    (hmeans : left.filterMap Component.ofPiece? = names.map .name) :
    left.dropWhile isFiller = names := by
  rcases List.suffix_or_suffix_of_suffix hleft (List.suffix_append before names) with hshort | hlong
  · have hentries : ∀ name ∈ left, isEntryName name = true := fun name hname =>
      hnames name (hshort.subset hname)
    rw [filterMap_ofPiece?_names hentries] at hmeans
    have hinj : Function.Injective Component.name := fun _ _ h => Component.name.inj h
    rw [dropWhile_isFiller_names hentries, List.map_injective_iff.mpr hinj hmeans]
  · obtain ⟨fillers, rfl⟩ := hlong
    rw [List.filterMap_append, filterMap_ofPiece?_names hnames, List.append_left_eq_self] at hmeans
    have hfillers : ∀ piece ∈ fillers, isFiller piece = true := by
      intro piece hpiece
      have hnone := List.filterMap_eq_nil_iff.mp hmeans piece hpiece
      rw [Component.ofPiece?] at hnone
      by_contra hnot
      rw [if_neg hnot] at hnone
      split at hnone <;> cases hnone
    rw [List.dropWhile_append_of_pos hfillers, dropWhile_isFiller_names hnames]

/-- Without the path of the directory, the path of an entry below it is the names that lead
there. -/
theorem stripPrefix?_foldl_join (hempty : path.isEmpty = false) (hne : names ≠ [])
    (hnames : ∀ name ∈ names, isEntryName name = true) :
    (names.foldl (fun path name => path.join ⟨[name]⟩) path).stripPrefix? path =
      some ⟨names⟩ := by
  have hcomponents := components_foldl_join hempty hnames
  obtain ⟨-, before, hpieces⟩ := exists_pieces_foldl_join hempty hnames
  generalize names.foldl (fun path name => path.join ⟨[name]⟩) path = file at hcomponents hpieces ⊢
  have hbase := components_ne_nil hempty
  have hstarts : path.components.isPrefixOf file.components = true := by
    rw [hcomponents, List.isPrefixOf_iff_prefix]
    exact List.prefix_append ..
  have hleft := filterMap_left file (fun hzero => hbase (List.eq_nil_of_length_eq_zero hzero))
  rw [hcomponents, List.drop_left] at hleft
  have hsuffix := (afterComponents_suffix
    (path.components.length - file.head?.toList.length) file.body).trans (body_suffix file)
  rw [hpieces] at hsuffix
  obtain ⟨earlier, last, rfl⟩ := (List.eq_nil_or_concat' names).resolve_left hne
  have hlast := (isEntryName_eq_true_iff.mp (hnames last (by simp))).1
  have htrim : trimEnd (earlier ++ [last]) = earlier ++ [last] :=
    List.rdropWhile_concat_neg _ _ _ (by simp [hlast])
  simp only [stripPrefix?, hstarts, if_true, List.isEmpty_iff, hbase, if_false,
    dropWhile_isFiller_eq hnames hsuffix hleft, htrim]
  cases earlier <;> rfl

/-! ### Extensions -/

/-- Another extension changes the last piece of a path. -/
theorem pieces_withExtension (hnames : ∀ name ∈ names ++ [last], isEntryName name = true)
    (extension : String) :
    ((⟨names ++ [last]⟩ : Path).withExtension extension).pieces =
      names ++ [renameExtension last extension] := by
  have hlast : isEntryName last = true := hnames last (by simp)
  have hhead : (⟨names ++ [last]⟩ : Path).head? = none := by
    obtain ⟨first, rest, hcons⟩ := List.exists_cons_of_ne_nil (l := names ++ [last]) (by simp)
    refine head?_of_not_isFiller hcons (isEntryName_eq_true_iff.mp (hnames first ?_)).1
    rw [hcons]
    exact List.mem_cons_self ..
  have hbody : (⟨names ++ [last]⟩ : Path).body = names ++ [last] := by
    rw [body, hhead]
    rfl
  have hname : (⟨names ++ [last]⟩ : Path).fileName? = some last := by
    rw [fileName?, components, hhead, hbody, List.filterMap_append]
    simp [ofPiece?_of_isEntryName hlast]
  have htrim : trimEnd (names ++ [last]) = names ++ [last] :=
    List.rdropWhile_concat_neg _ _ _ (by simp [(isEntryName_eq_true_iff.mp hlast).1])
  simp only [withExtension, hname, hhead, hbody, htrim, List.dropLast_concat]
  cases names <;> rfl

/-- A path of entry names is straight with another extension too. -/
private theorem straight_withExtension (hne : names ≠ [])
    (hnames : ∀ name ∈ names, isEntryName name = true) :
    ((⟨names⟩ : Path).withExtension "html").Straight := by
  obtain ⟨earlier, last, rfl⟩ := (List.eq_nil_or_concat' names).resolve_left hne
  exact ⟨earlier, _, pieces_withExtension hnames "html", fun name hname =>
    hnames name (List.mem_append_left _ hname), isEntryName_renameExtension last⟩

/-- An output name is names of entries, though its last piece may be `..`. -/
theorem Collected.straight_outputName {files : FileSystem} {input : Input}
    (h : Collected files input) : input.outputName.Straight := by
  cases h with
  | stdin => exact ⟨[], "stdin.html", rfl, by simp, .inl rfl⟩
  | @named path h =>
    obtain ⟨name, hname, hentry⟩ := exists_fileName?_of_isFile h
    have hstraight : ((⟨[name]⟩ : Path).withExtension "html").Straight :=
      straight_withExtension (by simp) (by simpa using hentry)
    simpa [Input.outputName, hname] using hstraight
  | @below path file hpath h =>
    obtain ⟨place, names, hresolve, hdirectory, hbelow, rfl⟩ :=
      exists_filesBelow_of_mem_documentsBelow hpath h
    have hrel := stripPrefix?_foldl_join (resolve_eq_ok_iff.mp hresolve).1
      (ne_nil_of_mem_filesBelow hdirectory hbelow) (isEntryName_of_mem_filesBelow hbelow)
    have hstraight : ((⟨names⟩ : Path).withExtension "html").Straight :=
      straight_withExtension (ne_nil_of_mem_filesBelow hdirectory hbelow)
        (isEntryName_of_mem_filesBelow hbelow)
    simpa [Input.outputName, hrel] using hstraight

end IconMarkup
