import IconMarkup.CommandLine.Rendering
import IconMarkup.Proofs.Files.Making
import IconMarkup.Proofs.Input.OutputNames

/-!
# Targets

Where the outputs of collected inputs stand below an output directory. The target of an input adds
names of entries to the path of the directory (`Input.PlacedAt`): those that lead from a walked
directory to the document, or the file name of a document that was named itself, with the extension
`html` (`Input.NamedAfter`). So the output is written strictly below the directory, whatever that
is. The exception is a file that was named itself and whose name is two dots and an extension
(`exists_placedAt_iff`): the name of its output is `..`.
-/

namespace IconMarkup

open CommandLine Files Files.FileSystem Files.Path

variable {files : FileSystem} {input : Input} {names : List String} {base : Location}

/-! ### Below a directory -/

/-- Whether the entries of a path are those of the directory at a place: the path leads there, or it
is empty and the place is the working directory. -/
structure Files.FileSystem.Opens (files : FileSystem) (path : Path) (base : Location) : Prop where
  directory : files.get? base = some .directory
  leads : files.resolve path = .ok base ∨ path.isEmpty = true ∧ base = files.workingDirectory

/-- Names that are joined to the path of a directory go on from there. -/
private theorem Files.FileSystem.Opens.goesOn_join {path : Path} (h : files.Opens path base)
    (hne : names ≠ []) (hnames : ∀ name ∈ names, isEntryName name = true) :
    files.GoesOn (path.join ⟨names⟩) base names := by
  have hinner := inner_of_names hne hnames
  rcases h.leads with hresolve | ⟨hempty, rfl⟩
  · exact FileSystem.goesOn_join (resolve_eq_ok_iff.mp hresolve).1 hresolve h.directory hne
      hinner.relative
  · have hnonempty : (⟨names⟩ : Path).isEmpty = false := by
      refine isEmpty_eq_false_iff.mpr ⟨hne, fun hsingle => ?_⟩
      exact ne_empty_of_isEntryName (hnames "" (by simp [show names = [""] from hsingle])) rfl
    rw [join_of_isEmpty hempty]
    refine ⟨hnonempty, ⟨[], rfl, ?_⟩, h.directory⟩
    rw [followAll_nil, origin, if_neg (by simp [hinner.relative])]

/-- Names that are joined to a path are further components, also if the path is empty. -/
private theorem components_join_eq (path : Path) (hne : names ≠ [])
    (hnames : ∀ name ∈ names, isEntryName name = true) :
    (path.join ⟨names⟩).components = path.components ++ names.map .name := by
  rcases hempty : path.isEmpty with _ | _
  · exact (components_join_names hempty hne hnames).2
  · have hbody : (⟨names⟩ : Path).body = names := by
      rw [body, (inner_of_names hne hnames).noHead]
      rfl
    have hnone : path.components = [] := by
      obtain ⟨pieces⟩ := path
      rcases of_decide_eq_true hempty with hnil | hsingle
      · subst hnil
        rfl
      · cases hsingle
        rfl
    rw [join_of_isEmpty hempty, components, (inner_of_names hne hnames).noHead, hbody,
      filterMap_ofPiece?_names hnames, hnone]
    rfl

/-! ### The names of an output -/

/-- Whether names are those of the source of an input, with the extension `html`: the name of a file
that was named itself, or the names that lead to a file from the directory below which it was
found. -/
inductive Input.NamedAfter : Input → List String → Prop
  | stdin : NamedAfter .stdin ["stdin.html"]
  | named {path : Path} {name renamed : String} (hname : path.fileName? = some name)
      (hrenamed : Renamed name renamed) : NamedAfter (.file path none) [renamed]
  | below {root path : Path} {names : List String} {last renamed : String}
      (hpath : path.components = root.components ++ (names ++ [last]).map .name)
      (hrenamed : Renamed last renamed) : NamedAfter (.file path (some root)) (names ++ [renamed])

/-- Whether an input is a file that was named itself, and its name is two dots and an extension. -/
def Input.IsDotted (input : Input) : Prop :=
  ∃ path name, input = .file path none ∧ path.fileName? = some name ∧ Files.IsDotted name

/-- Whether the output of an input stands below every output directory, where names lead that are
those of the source. -/
structure Input.PlacedAt (input : Input) (names : List String) : Prop where
  namedAfter : input.NamedAfter names
  outputName : input.outputName = ⟨names⟩
  nonempty : names ≠ []
  entries : ∀ name ∈ names, isEntryName name = true
  components : ∀ directory : Path,
    (targetOf directory input).components = directory.components ++ names.map .name
  resolve : ∀ {files : FileSystem} {directory : Path} {base place : Location},
    files.Opens directory base → files.resolve (targetOf directory input) = .ok place →
      place = base ++ names
  written : ∀ {files after : FileSystem} {directory : Path} {base : Location} {content : ByteArray},
    files.Opens directory base →
      files.writeFile (targetOf directory input) content = .ok after →
        after = files.put (base ++ names) (.file content)

/-- An output name of names of entries puts the output below every directory. -/
private theorem Input.NamedAfter.placedAt (h : input.NamedAfter names)
    (hname : input.outputName = ⟨names⟩)
    (hne : names ≠ []) (hnames : ∀ name ∈ names, isEntryName name = true) :
    input.PlacedAt names := by
  have htarget (directory : Path) : targetOf directory input = directory.join ⟨names⟩ := by
    rw [targetOf, hname]
  refine ⟨h, hname, hne, hnames, fun directory => ?_, fun hopens hplace => ?_,
    fun hopens hwrite => ?_⟩
  · rw [htarget]
    exact components_join_eq directory hne hnames
  · rw [htarget, (hopens.goesOn_join hne hnames).resolve_eq] at hplace
    exact ((followAll_names_eq_ok_iff hnames hopens.directory).mp hplace).1
  · rw [htarget] at hwrite
    exact (hopens.goesOn_join hne hnames).eq_of_writeFile hne hnames hwrite

/-- The output of a file that is found below a directory is placed as the file is. -/
private theorem exists_placedAt_of_mem_documentsBelow {path file : Path}
    (hpath : files.isDirectory path = true) (h : file ∈ documentsBelow files path) :
    ∃ names, (Input.file file (some path)).PlacedAt names := by
  obtain ⟨place, names, hresolve, hdirectory, hbelow, rfl⟩ :=
    exists_filesBelow_of_mem_documentsBelow hpath h
  have hempty := (resolve_eq_ok_iff.mp hresolve).1
  have hne := ne_nil_of_mem_filesBelow hdirectory hbelow
  have hnames := isEntryName_of_mem_filesBelow hbelow
  have hrel := stripPrefix?_foldl_join hempty hne hnames
  obtain ⟨earlier, last, rfl⟩ := (List.eq_nil_or_concat' names).resolve_left hne
  have hrenamed : Renamed last (renameExtension last "html") :=
    renamed_of_not_startsWith (not_startsWith_of_mem_filesBelow hbelow last (by simp))
  refine ⟨earlier ++ [renameExtension last "html"], ?_⟩
  refine Input.NamedAfter.placedAt (.below (components_foldl_join hempty hnames) hrenamed) ?_
    (by simp) ?_
  · have hpieces := pieces_withExtension hnames "html"
    simp only [Input.outputName, Option.bind_some, hrel, Option.some_or, Option.getD_some]
    rw [← hpieces]
  · rw [List.forall_mem_append] at hnames ⊢
    exact ⟨hnames.1, by simpa using hrenamed.isEntryName⟩

/-- The output of a file that was named itself has its file name with another extension. -/
private theorem outputName_of_fileName? {path : Path} {name : String}
    (hname : path.fileName? = some name) (hentry : isEntryName name = true) :
    (Input.file path none).outputName = ⟨[renameExtension name "html"]⟩ := by
  have hpieces : ((⟨[name]⟩ : Path).withExtension "html").pieces =
      [renameExtension name "html"] := by
    have hnames : ∀ other ∈ [] ++ [name], isEntryName other = true := by simpa using hentry
    exact pieces_withExtension hnames "html"
  simp only [Input.outputName, Option.bind_none, Option.none_or, hname, Option.map_some,
    Option.getD_some]
  rw [← hpieces]

private theorem not_isDotted_of_root (path root : Path) :
    ¬ (Input.file path (some root)).IsDotted := by
  rintro ⟨other, name, heq, -⟩
  cases heq

private theorem not_isDotted_stdin : ¬ Input.stdin.IsDotted := by
  rintro ⟨path, name, heq, -⟩
  cases heq

/-- The output of a file that was named itself is placed by its name, or it is two dots. -/
theorem exists_placedAt_or_isDotted {path : Path} (hfile : files.isFile path = true) :
    (∃ names, (Input.file path none).PlacedAt names) ∧ ¬ (Input.file path none).IsDotted ∨
      (Input.file path none).IsDotted ∧ (Input.file path none).outputName = ⟨[".."]⟩ := by
  obtain ⟨name, hname, hentry⟩ := exists_fileName?_of_isFile hfile
  have houtput := outputName_of_fileName? hname hentry
  rcases renameExtension_cases name with ⟨hrenamed, hnot⟩ | ⟨hdotted, habove⟩
  · refine .inl ⟨⟨_, (Input.NamedAfter.named hname hrenamed).placedAt houtput (by simp) ?_⟩, ?_⟩
    · simpa using hrenamed.isEntryName
    · rintro ⟨other, name', heq, hname', hdotted⟩
      cases heq
      cases hname.symm.trans hname'
      exact hnot hdotted
  · exact .inr ⟨⟨path, name, rfl, hname, hdotted⟩, by rw [houtput, habove]⟩

/-- What is named by two dots is not placed below a directory. -/
private theorem not_placedAt_of_outputName (hname : input.outputName = ⟨[".."]⟩) :
    ¬ ∃ names, input.PlacedAt names := by
  rintro ⟨names, hplaced⟩
  have hnames : names = [".."] :=
    congrArg Files.Path.pieces (hplaced.outputName.symm.trans hname)
  have hentry := hplaced.entries ".." (by rw [hnames]; exact List.mem_singleton_self _)
  cases hentry

/-- The output of each input that paths stand for is placed below every output directory, unless the
input is a file that was named itself and whose name is two dots and an extension; the name of its
output is two dots. -/
theorem exists_placedAt_iff {forced : Option DocumentFormat} {paths : List Path}
    {inputs : List Input} (h : collectInputs files forced paths = .ok inputs)
    (hinput : input ∈ inputs) :
    ((∃ names, input.PlacedAt names) ↔ ¬ input.IsDotted) ∧
      (input.IsDotted → input.outputName = ⟨[".."]⟩) := by
  have hcases : (∃ names, input.PlacedAt names) ∧ ¬ input.IsDotted ∨
      input.IsDotted ∧ input.outputName = ⟨[".."]⟩ := by
    cases collected_of_mem h input hinput with
    | stdin =>
      have hnames : ∀ name ∈ ["stdin.html"], isEntryName name = true := by
        rw [List.forall_mem_singleton]
        rfl
      exact .inl ⟨⟨_, Input.NamedAfter.stdin.placedAt rfl (by simp) hnames⟩, not_isDotted_stdin⟩
    | named hfile => exact exists_placedAt_or_isDotted hfile
    | below hpath hmem =>
      exact .inl ⟨exists_placedAt_of_mem_documentsBelow hpath hmem, not_isDotted_of_root _ _⟩
  rcases hcases with ⟨hplaced, hnot⟩ | ⟨hdotted, hname⟩
  · exact ⟨iff_of_true hplaced hnot, fun hdotted => absurd hdotted hnot⟩
  · exact ⟨iff_of_false (not_placedAt_of_outputName hname) (not_not.mpr hdotted), fun _ => hname⟩

/-- The path of a note whose name is two dots and an extension. -/
def dottedPath : Path := ⟨["..md"]⟩

/-- The note. -/
def dottedNote : FileSystem := ({} : FileSystem).put dottedPath.pieces (.file "x".toUTF8)

/-- The output of the note is not placed below the output directory. -/
theorem not_placedAt_dottedNote :
    collectInputs dottedNote none [dottedPath] = .ok [.file dottedPath none] ∧
      ¬ ∃ names, (Input.file dottedPath none).PlacedAt names := by
  have hinputs : collectInputs dottedNote none [dottedPath] = .ok [.file dottedPath none] := by
    decide +kernel
  have hname : dottedPath.fileName? = some "..md" := by
    decide +kernel
  refine ⟨hinputs, fun hplaced => ?_⟩
  have hdotted : Files.IsDotted "..md" := ⟨"md", rfl, by decide⟩
  exact (exists_placedAt_iff hinputs (List.mem_singleton_self _)).1.mp hplaced
    ⟨dottedPath, "..md", rfl, hname, hdotted⟩

end IconMarkup
