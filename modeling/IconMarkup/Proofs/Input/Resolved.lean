import IconMarkup.Proofs.Input.Refused
import IconMarkup.Proofs.Input.Walked

/-!
# Resolved paths

Which inputs the paths on the command line stand for. Paths are acceptable if none of them is
refused after the ones before it (`acceptable_concat_iff`). Exactly then there are inputs, and they
are those of the paths one after the other (`inputsFrom_eq_ok_iff`): the standard input, the named
file, or the documents that a walk below the named directory finds (`StandsFor`). Otherwise the
error is that of the first path that is refused (`firstRefused_iff`).
-/

namespace IconMarkup

open Files Files.FileSystem

variable {files : FileSystem} {forced : Option DocumentFormat} {before paths rest : List Path}
  {path : Path} {error : InputError} {seen : Bool} {inputs part : List Input}

/-- Whether a path is that of a directory, or of a file whose format is known or given. -/
def LeadsToInputs (files : FileSystem) (forced : Option DocumentFormat) (path : Path) : Prop :=
  files.isDirectory path = true ∨ files.isFile path = true ∧
    ((DocumentFormat.ofPath? path).isSome = true ∨ forced.isSome = true)

instance : Decidable (LeadsToInputs files forced path) :=
  inferInstanceAs (Decidable (_ ∨ _ ∧ (_ ∨ _)))

/-- Whether paths can stand for inputs: the standard input is named once at most, and each other
path leads to inputs. -/
structure Acceptable (files : FileSystem) (forced : Option DocumentFormat) (paths : List Path) :
    Prop where
  once : paths.count stdinPath ≤ 1
  each : ∀ path ∈ paths, path ≠ stdinPath → LeadsToInputs files forced path

/-- The path of what names lead to from a path. -/
def pathBelow (path : Path) (names : List String) : Path :=
  names.foldl (fun path name => path.join ⟨[name]⟩) path

/-- Which inputs a path stands for: the standard input, the file that it names, or the documents
that a walk from the directory that it names finds, in the order of the walk. -/
inductive StandsFor (files : FileSystem) : Path → List Input → Prop
  | stdin : StandsFor files stdinPath [.stdin]
  | file {path : Path} (hpath : path ≠ stdinPath) (h : files.isFile path = true) :
    StandsFor files path [.file path none]
  | directory {path : Path} {location : Location} {found : List (List String)}
    (hpath : path ≠ stdinPath) (hresolve : files.resolve path = .ok location)
    (hdirectory : files.get? location = some .directory)
    (hfound : DepthFirst files location found) :
    StandsFor files path (((found.map (pathBelow path)).filter fun file =>
      (DocumentFormat.ofPath? file).isSome).map fun file => .file file (some path))

/-! ### One path -/

private theorem documentsBelow_eq {location : Location}
    (hresolve : files.resolve path = .ok location)
    (hdirectory : files.get? location = some .directory) :
    documentsBelow files path = ((files.filesBelow location).map (pathBelow path)).filter
      fun file => (DocumentFormat.ofPath? file).isSome := by
  rw [documentsBelow, walk, hresolve]
  simp only [hdirectory]
  rfl

/-- A path stands for no other inputs. -/
private theorem StandsFor.eq_inputsOf (h : StandsFor files path part) :
    part = inputsOf files path := by
  cases h with
  | stdin => rw [inputsOf, if_pos rfl]
  | file hpath hfile => rw [inputsOf, if_neg hpath, if_pos hfile]
  | directory hpath hresolve hdirectory hfound =>
    have hnone := isFile_of_isDirectory (isDirectory_eq_true_iff.mpr ⟨_, hresolve, hdirectory⟩)
    rw [inputsOf, if_neg hpath, hnone, if_neg Bool.false_ne_true,
      documentsBelow_eq hresolve hdirectory, hfound.eq_filesBelow]

/-- A path that leads to a file or a directory stands for its inputs. -/
private theorem standsFor_inputsOf (h : path ≠ stdinPath → files.isDirectory path = true ∨
    files.isFile path = true) : StandsFor files path (inputsOf files path) := by
  by_cases hpath : path = stdinPath
  · subst hpath
    rw [inputsOf, if_pos rfl]
    exact .stdin
  rw [inputsOf, if_neg hpath]
  rcases h hpath with hdirectory | hfile
  · rw [isFile_of_isDirectory hdirectory, if_neg Bool.false_ne_true]
    obtain ⟨location, hresolve, hentry⟩ := isDirectory_eq_true_iff.mp hdirectory
    rw [documentsBelow_eq hresolve hentry]
    exact .directory hpath hresolve hentry (depthFirst_filesBelow (by rw [hentry]; rfl))
  · rw [if_pos hfile]
    exact .file hpath hfile

/-- A directory stands for all documents below it. -/
theorem StandsFor.mem_iff {location : Location} (h : StandsFor files path part)
    (hpath : path ≠ stdinPath) (hresolve : files.resolve path = .ok location)
    (hdirectory : files.get? location = some .directory) (input : Input) :
    input ∈ part ↔ ∃ names, LeadsToFile files location names ∧
      (DocumentFormat.ofPath? (pathBelow path names)).isSome = true ∧
        input = .file (pathBelow path names) (some path) := by
  have hnone := isFile_of_isDirectory (isDirectory_eq_true_iff.mpr ⟨_, hresolve, hdirectory⟩)
  rw [h.eq_inputsOf, inputsOf, if_neg hpath, hnone, if_neg Bool.false_ne_true,
    documentsBelow_eq hresolve hdirectory]
  constructor
  · intro hinput
    obtain ⟨file, hfile, rfl⟩ := List.mem_map.mp hinput
    obtain ⟨hbelow, hknown⟩ := List.mem_filter.mp hfile
    obtain ⟨names, hnames, rfl⟩ := List.mem_map.mp hbelow
    exact ⟨names, mem_filesBelow_iff.mp hnames, hknown, rfl⟩
  · rintro ⟨names, hnames, hknown, rfl⟩
    refine List.mem_map_of_mem (List.mem_filter.mpr ⟨?_, hknown⟩)
    exact List.mem_map_of_mem (mem_filesBelow_iff.mpr hnames)

theorem pathBelow_inj {location : Location} {names others : List String}
    (hpath : files.resolve path = .ok location) (h : LeadsToFile files location names)
    (h' : LeadsToFile files location others)
    (hsame : pathBelow path names = pathBelow path others) : names = others := by
  have hempty := (resolve_eq_ok_iff.mp hpath).1
  have hcomponents : ∀ {names}, LeadsToFile files location names →
      (pathBelow path names).components = path.components ++ names.map .name := by
    rintro names ⟨⟨content, hcontent⟩, -⟩
    exact components_foldl_join hempty (isEntryName_of_append (by rw [hcontent]; rfl))
  have hnames := congrArg Path.components hsame
  rw [hcomponents h, hcomponents h', List.append_cancel_left_eq] at hnames
  exact (List.map_injective_iff.mpr fun _ _ => Component.name.inj) hnames

/-- A path stands for each of its inputs once. -/
theorem StandsFor.nodup (h : StandsFor files path part) : part.Nodup := by
  cases h with
  | stdin => exact List.nodup_singleton _
  | file => exact List.nodup_singleton _
  | directory hpath hresolve hdirectory hfound =>
    refine List.Nodup.map (fun _ _ hsame => (Input.file.inj hsame).1) (List.Nodup.filter _ ?_)
    refine List.Nodup.map_on (fun names hnames others hothers => ?_) hfound.pairwise.nodup
    exact pathBelow_inj hresolve ((hfound.mem_iff names).mp hnames)
      ((hfound.mem_iff others).mp hothers)

/-! ### All paths -/

private theorem acceptable_nil : Acceptable files forced [] :=
  ⟨Nat.zero_le 1, List.forall_mem_nil _⟩

private theorem Acceptable.of_append (h : Acceptable files forced (before ++ rest)) :
    Acceptable files forced before := by
  refine ⟨?_, fun path hpath => h.each path (List.mem_append_left _ hpath)⟩
  have honce := h.once
  rw [List.count_append] at honce
  omega

/-- When a path is not refused. -/
private theorem forall_not_refused_iff : (∀ error, ¬ Refused files forced before path error) ↔
    (path = stdinPath → stdinPath ∉ before) ∧
      (path ≠ stdinPath → LeadsToInputs files forced path) := by
  constructor
  · intro h
    refine ⟨?_, fun hne => ?_⟩
    · rintro rfl hbefore
      exact h _ (.repeated hbefore)
    rcases hdirectory : files.isDirectory path with _ | _
    · rcases hfile : files.isFile path with _ | _
      · exact absurd (.notFound hne hfile hdirectory) (h _)
      · refine .inr ⟨hfile, ?_⟩
        by_contra hunknown
        rw [not_or, Option.not_isSome_iff_eq_none, Option.not_isSome_iff_eq_none] at hunknown
        exact h _ (.unsupported hne hfile hunknown.2 hunknown.1)
    · exact .inl hdirectory
  · rintro ⟨hstdin, hother⟩ error hrefused
    cases hrefused with
    | repeated hbefore => exact hstdin rfl hbefore
    | unsupported hne hfile hforced hformat =>
      rcases hother hne with hdirectory | ⟨-, hknown⟩
      · rw [isFile_of_isDirectory hdirectory] at hfile
        cases hfile
      · simp [hforced, hformat] at hknown
    | notFound hne hfile hdirectory =>
      have hleads := hother hne
      simp [LeadsToInputs, hfile, hdirectory] at hleads

/-- Paths stay acceptable with another one if it is not refused after them. -/
theorem acceptable_concat_iff : Acceptable files forced (before ++ [path]) ↔
    Acceptable files forced before ∧ ∀ error, ¬ Refused files forced before path error := by
  rw [forall_not_refused_iff]
  constructor
  · intro h
    refine ⟨h.of_append, ?_, h.each path (List.mem_append_right _ (List.mem_singleton_self path))⟩
    rintro rfl hbefore
    have honce := h.once
    have hpos := List.count_pos_iff.mpr hbefore
    rw [List.count_append, List.count_singleton_self] at honce
    omega
  · rintro ⟨h, hstdin, hother⟩
    constructor
    · have honce := h.once
      rw [List.count_append, List.count_singleton]
      split
      · rename_i hpath
        rw [List.count_eq_zero.mpr (hstdin (eq_of_beq hpath))]
      · omega
    · intro other hmem hne
      rcases List.mem_append.mp hmem with hbefore | hlast
      · exact h.each other hbefore hne
      · rw [List.mem_singleton] at hlast
        subst hlast
        exact hother hne

/-- Acceptable paths stand for the inputs of each one, in order. -/
theorem inputsFrom_eq_ok_iff (hseen : seen = true ↔ stdinPath ∈ before)
    (hbefore : Acceptable files forced before) :
    inputsFrom files forced seen paths = .ok inputs ↔
      Acceptable files forced (before ++ paths) ∧ inputs = paths.flatMap (inputsOf files) := by
  induction paths generalizing seen before inputs with
  | nil =>
    rw [inputsFrom, List.append_nil, and_iff_right hbefore, Except.ok.injEq, List.flatMap_nil,
      eq_comm]
  | cons path rest ih =>
    rw [List.append_cons]
    by_cases hpath : ∃ error, Refused files forced before path error
    · obtain ⟨error, hrefused⟩ := hpath
      rw [inputsFrom_cons_of_refused hseen hrefused]
      refine iff_of_false (by simp) fun h => ?_
      exact (acceptable_concat_iff.mp h.1.of_append).2 error hrefused
    · rw [not_exists] at hpath
      have hrest {more} := @ih (before ++ [path]) _ more (seen_concat_iff hseen path)
        (acceptable_concat_iff.mpr ⟨hbefore, hpath⟩)
      rw [inputsFrom_cons_of_not_refused hseen hpath, List.flatMap_cons]
      rcases hmore : inputsFrom files forced (seen || decide (path = stdinPath)) rest with
        fault | more
      · refine iff_of_false (by simp [Except.map]) fun h => ?_
        have hok := hrest.mpr ⟨h.1, rfl⟩
        rw [hmore] at hok
        cases hok
      · obtain ⟨h, rfl⟩ := hrest.mp hmore
        rw [and_iff_right h, Except.map, Except.ok.injEq, eq_comm]

/-- The first path that is refused comes after acceptable ones. -/
theorem firstRefused_iff (hbefore : Acceptable files forced before) :
    FirstRefused files forced before paths error ↔
      ∃ first path after, paths = first ++ path :: after ∧
        Acceptable files forced (before ++ first) ∧
        Refused files forced (before ++ first) path error := by
  induction paths generalizing before with
  | nil => exact iff_of_false (by rintro ⟨⟩) (by simp)
  | cons path rest ih =>
    constructor
    · rintro (h | ⟨hpath, hrest⟩)
      · exact ⟨[], path, rest, rfl, by rwa [List.append_nil], by rwa [List.append_nil]⟩
      · obtain ⟨first, other, after, rfl, haccepted, h⟩ :=
          (ih (acceptable_concat_iff.mpr ⟨hbefore, hpath⟩)).mp hrest
        exact ⟨path :: first, other, after, rfl, by rwa [List.append_cons],
          by rwa [List.append_cons]⟩
    · rintro ⟨first, other, after, hpaths, haccepted, h⟩
      rcases first with _ | ⟨next, first⟩
      · cases hpaths
        rw [List.append_nil] at h
        exact .here h
      · cases hpaths
        rw [List.append_cons] at haccepted h
        have hnext := haccepted.of_append
        exact .there (acceptable_concat_iff.mp hnext).2
          ((ih hnext).mpr ⟨first, other, after, rfl, haccepted, h⟩)

/-! ### The parts of the paths -/

private theorem Acceptable.standsFor (h : Acceptable files forced paths) (hpath : path ∈ paths) :
    StandsFor files path (inputsOf files path) :=
  standsFor_inputsOf fun hne => (h.each path hpath hne).imp_right And.left

theorem forall₂_standsFor_iff (h : Acceptable files forced paths) {parts : List (List Input)} :
    List.Forall₂ (StandsFor files) paths parts ↔ parts = paths.map (inputsOf files) := by
  constructor
  · intro hparts
    have hsame : List.Forall₂ (· = ·) parts (paths.map (inputsOf files)) :=
      List.forall₂_map_right_iff.mpr (hparts.imp fun _ _ hstands => hstands.eq_inputsOf).flip
    rwa [List.forall₂_eq_eq_eq] at hsame
  · rintro rfl
    exact List.forall₂_map_right_iff.mpr (List.forall₂_same.mpr fun path hpath => h.standsFor hpath)

/-- When no format is given, the formats of all files are known. -/
private theorem Acceptable.isSome_ofPath? (h : Acceptable files none paths) {root : Option Path}
    (hinput : .file path root ∈ paths.flatMap (inputsOf files)) :
    (DocumentFormat.ofPath? path).isSome = true := by
  obtain ⟨named, hnamed, hpart⟩ := List.mem_flatMap.mp hinput
  have hstands := h.standsFor hnamed
  generalize inputsOf files named = part at hpart hstands
  cases hstands with
  | stdin => simp at hpart
  | file hpath hfile =>
    obtain ⟨rfl, -⟩ := Input.file.inj (List.mem_singleton.mp hpart)
    rcases h.each path hnamed hpath with hdirectory | ⟨-, hknown | hforced⟩
    · rw [isFile_of_isDirectory hdirectory] at hfile
      cases hfile
    · exact hknown
    · cases hforced
  | directory hpath hresolve hdirectory hfound =>
    obtain ⟨file, hfile, hsame⟩ := List.mem_map.mp hpart
    obtain ⟨rfl, -⟩ := Input.file.inj hsame
    exact (List.mem_filter.mp hfile).2

/-- What paths on the command line stand for. There are inputs exactly if the paths are acceptable,
and then they are those of each path, in order, each one once; a directory stands for all documents
below it. Else the error is that of the first path that is refused. When no format is given, the
extension of each file tells its format. -/
theorem collectInputs_resolves (files : FileSystem) (forced : Option DocumentFormat)
    {paths : List Path} (hpaths : paths ≠ []) :
    ((∃ inputs, collectInputs files forced paths = .ok inputs) ↔ Acceptable files forced paths) ∧
      (∀ inputs, collectInputs files forced paths = .ok inputs ↔
        Acceptable files forced paths ∧ ∃ parts, List.Forall₂ (StandsFor files) paths parts ∧
          (∀ part ∈ parts, part.Nodup) ∧ inputs = parts.flatten) ∧
      (∀ {path location part}, StandsFor files path part → path ≠ stdinPath →
        files.resolve path = .ok location → files.get? location = some .directory →
          ∀ input, input ∈ part ↔ ∃ names, LeadsToFile files location names ∧
            (DocumentFormat.ofPath? (pathBelow path names)).isSome = true ∧
              input = .file (pathBelow path names) (some path)) ∧
      (∀ error, collectInputs files forced paths = .error error ↔
        ∃ before path after, paths = before ++ path :: after ∧ Acceptable files forced before ∧
          Refused files forced before path error) ∧
      (forced = none → ∀ inputs, collectInputs files forced paths = .ok inputs →
        ∀ path root, .file path root ∈ inputs → ∃ format,
          DocumentFormat.ofPath? path = some format ∧
            (Input.file path root).format forced = format) := by
  have hcollect : collectInputs files forced paths = inputsFrom files forced false paths := by
    rw [collectInputs, if_neg (by simpa using hpaths)]
  have hseen : false = true ↔ stdinPath ∈ ([] : List Path) := by simp
  have hok : ∀ inputs, collectInputs files forced paths = .ok inputs ↔
      Acceptable files forced paths ∧ inputs = paths.flatMap (inputsOf files) := fun inputs => by
    rw [hcollect, inputsFrom_eq_ok_iff hseen acceptable_nil, List.nil_append]
  refine ⟨?_, fun inputs => ?_, StandsFor.mem_iff, fun error => ?_, ?_⟩
  · constructor
    · rintro ⟨inputs, hinputs⟩
      exact ((hok inputs).mp hinputs).1
    · intro h
      exact ⟨_, (hok _).mpr ⟨h, rfl⟩⟩
  · rw [hok]
    refine and_congr_right fun h => ?_
    constructor
    · rintro rfl
      refine ⟨paths.map (inputsOf files), (forall₂_standsFor_iff h).mpr rfl, ?_, rfl⟩
      intro part hpart
      obtain ⟨path, hpath, rfl⟩ := List.mem_map.mp hpart
      exact (h.standsFor hpath).nodup
    · rintro ⟨parts, hparts, -, rfl⟩
      rw [(forall₂_standsFor_iff h).mp hparts]
      rfl
  · rw [hcollect, inputsFrom_eq_error_iff hseen, firstRefused_iff acceptable_nil]
    simp only [List.nil_append]
  · rintro rfl inputs hinputs path root hfile
    obtain ⟨h, rfl⟩ := (hok inputs).mp hinputs
    obtain ⟨format, hformat⟩ := Option.isSome_iff_exists.mp (h.isSome_ofPath? hfile)
    exact ⟨format, hformat, by rw [Input.format, hformat]; rfl⟩

/-- A site with pages, a note, a text and a hidden page, and a page beside it. -/
def siteFiles : FileSystem :=
  let site := (({} : FileSystem).put ["site"] .directory).put ["site", "a"] .directory
  let pages := (site.put ["site", "b.html"] (.file .empty)).put ["site", ".old.html"] (.file .empty)
  let notes := (pages.put ["site", "a-note.md"] (.file .empty)).put ["site", "a.txt"] (.file .empty)
  (notes.put ["site", "a", "z.md"] (.file .empty)).put ["page.html"] (.file .empty)

/-- The path of the site. -/
def sitePath : Path := ⟨["site"]⟩

/-- The files in a directory come where its name stands among the others. -/
private theorem depthFirst_siteFiles :
    DepthFirst siteFiles ["site"] [["a", "z.md"], ["a-note.md"], ["a.txt"], ["b.html"]] := by
  have hsome : (siteFiles.get? ["site"]).isSome = true := by decide +kernel
  have hfound : siteFiles.filesBelow ["site"] =
      [["a", "z.md"], ["a-note.md"], ["a.txt"], ["b.html"]] :=
    List.Perm.eq_of_pairwise' (pairwise_filesBelow siteFiles ["site"]) (by decide +kernel)
      ((List.mergeSort_perm ..).trans (by decide +kernel))
  exact hfound ▸ depthFirst_filesBelow hsome

/-- The standard input, what is found in a directory, and a file. -/
theorem collectInputs_resolves_site :
    let paths : List Path := [stdinPath, sitePath, ⟨["page.html"]⟩]
    let inputs : List Input := [.stdin, .file ⟨["site", "a", "z.md"]⟩ (some sitePath),
      .file ⟨["site", "a-note.md"]⟩ (some sitePath), .file ⟨["site", "b.html"]⟩ (some sitePath),
      .file ⟨["page.html"]⟩ none]
    paths ≠ [] ∧ collectInputs siteFiles none paths = .ok inputs ∧
      ∀ path root, .file path root ∈ inputs → ∃ format,
        DocumentFormat.ofPath? path = some format ∧
          (Input.file path root).format none = format := by
  intro paths inputs
  have hpaths : paths ≠ [] := by simp [paths]
  obtain ⟨-, hok, -, -, hknown⟩ := collectInputs_resolves siteFiles none hpaths
  have hsite : StandsFor siteFiles sitePath [.file ⟨["site", "a", "z.md"]⟩ (some sitePath),
      .file ⟨["site", "a-note.md"]⟩ (some sitePath), .file ⟨["site", "b.html"]⟩ (some sitePath)] :=
    .directory (by decide) (by decide +kernel) rfl depthFirst_siteFiles
  have hpage : StandsFor siteFiles ⟨["page.html"]⟩ [.file ⟨["page.html"]⟩ none] :=
    .file (by decide) (by decide +kernel)
  have hinputs : collectInputs siteFiles none paths = .ok inputs := by
    refine (hok inputs).mpr ⟨⟨by decide, ?_⟩, [[.stdin], _, _],
      .cons .stdin (.cons hsite (.cons hpage .nil)), ?_, rfl⟩
    · decide +kernel
    · decide +kernel
  exact ⟨hpaths, hinputs, hknown rfl inputs hinputs⟩

end IconMarkup
