import IconMarkup.Proofs.Files.Resolution

/-!
# Extensions of file names

A file name is cut at its last dot, unless that is its first character (`splitExtension_cases`).
What comes after the dot is replaced, or an extension is added (`Renamed`). But `..md`, two dots and
an extension (`IsDotted`), is cut after its first dot, and what is left is not a file name any more:
another extension makes `..` of it (`renameExtension_cases`).
-/

namespace IconMarkup.Files

open FileSystem Files.Path

variable {name renamed : String}

/-- A file name is cut at its last dot, unless that is its first character. -/
theorem splitExtension_cases (name : List Char) :
    '.' ∉ name.tail ∧ splitExtension name = (name, none) ∨
      ∃ stem extension, stem ≠ [] ∧ '.' ∉ extension ∧ name = stem ++ '.' :: extension ∧
        splitExtension name = (stem, some extension) := by
  have hname : name = (name.reverse.dropWhile (· != '.')).reverse ++
      (name.reverse.takeWhile (· != '.')).reverse := by
    rw [← List.reverse_append, List.takeWhile_append_dropWhile, List.reverse_reverse]
  have hextension : '.' ∉ (name.reverse.takeWhile (· != '.')).reverse := fun h => by
    simpa using List.mem_takeWhile_imp (List.mem_reverse.mp h)
  have hfirst := List.head?_dropWhile_not (· != '.') name.reverse
  rw [splitExtension]
  generalize (name.reverse.takeWhile (· != '.')).reverse = extension at hname hextension ⊢
  rcases hdot : name.reverse.dropWhile (· != '.') with _ | ⟨dot, before⟩
  · rw [hdot] at hname
    have hsame : name = extension := hname
    exact .inl ⟨fun h => hextension (hsame ▸ List.mem_of_mem_tail h), rfl⟩
  · obtain rfl : dot = '.' := by simpa [hdot] using hfirst
    rw [hdot, List.reverse_cons, List.append_assoc] at hname
    rcases before with _ | ⟨c, earlier⟩
    · refine .inl ⟨?_, rfl⟩
      rw [hname]
      exact hextension
    · exact .inr ⟨(c :: earlier).reverse, extension, by simp, hextension, hname, rfl⟩

/-- Whether a file name is two dots and an extension without a dot. -/
def IsDotted (name : String) : Prop :=
  ∃ extension : String, name = ".." ++ extension ∧ '.' ∉ extension.toList

private theorem IsDotted.startsWith (h : IsDotted name) : name.startsWith "." = true := by
  obtain ⟨extension, rfl, -⟩ := h
  rw [String.startsWith_string_iff, String.toList_append]
  exact ⟨'.' :: extension.toList, rfl⟩

/-- Whether the second file name is the first one with the extension `html`: after its last dot, if
that is not its first character, or else at its end. -/
inductive Renamed : String → String → Prop
  | replaced {stem extension : String} (hstem : stem ≠ "") (hextension : '.' ∉ extension.toList) :
    Renamed (stem ++ "." ++ extension) (stem ++ ".html")
  | added {name : String} (h : '.' ∉ name.toList.tail) : Renamed name (name ++ ".html")

private theorem Renamed.exists_eq (h : Renamed name renamed) :
    ∃ stem, renamed = stem ++ ".html" := by
  cases h with
  | replaced => exact ⟨_, rfl⟩
  | added => exact ⟨_, rfl⟩

/-- A renamed file name is the name of an entry. -/
theorem Renamed.isEntryName (h : Renamed name renamed) : isEntryName renamed = true := by
  obtain ⟨stem, rfl⟩ := h.exists_eq
  have hlength : 5 ≤ (stem ++ ".html").length := by
    rw [String.length_append]
    exact Nat.le_add_left ..
  rw [isEntryName_eq_true_iff, isFiller, Bool.or_eq_false_iff, beq_eq_false_iff_ne,
    beq_eq_false_iff_ne]
  generalize stem ++ ".html" = renamed at hlength
  refine ⟨⟨?_, ?_⟩, ?_⟩ <;> rintro rfl <;> exact absurd hlength (by decide)

private theorem renameExtension_of_none (h : splitExtension name.toList = (name.toList, none))
    (extension : String) : renameExtension name extension = name ++ "." ++ extension := by
  rw [renameExtension, h]
  split
  · rename_i hdot
    exact absurd (congrArg Prod.snd hdot) (by simp)
  · rename_i hpair
    rw [← (Prod.mk.inj hpair).1, String.ofList_toList]

private theorem renameExtension_of_some {stem old : List Char}
    (h : splitExtension name.toList = (stem, some old)) (hstem : stem ≠ ['.'])
    (extension : String) :
    renameExtension name extension = String.ofList stem ++ "." ++ extension := by
  rw [renameExtension, h]
  split
  · rename_i hdot
    exact absurd (congrArg Prod.fst hdot) hstem
  · rename_i hpair
    rw [← (Prod.mk.inj hpair).1]

/-- A name with a dot after more than one dot is not two dots and an extension. -/
private theorem not_isDotted_of_append {stem extension : List Char}
    (hname : name.toList = stem ++ '.' :: extension) (hstem : stem ≠ []) (hdot : stem ≠ ['.']) :
    ¬ IsDotted name := by
  rintro ⟨rest, rfl, hrest⟩
  rw [String.toList_append] at hname
  change '.' :: '.' :: rest.toList = _ at hname
  rcases stem with _ | ⟨first, _ | ⟨second, more⟩⟩
  · exact hstem rfl
  · rw [List.cons_append, List.cons.injEq] at hname
    exact hdot (by rw [hname.1])
  · simp only [List.cons_append, List.cons.injEq] at hname
    exact hrest (by simp [hname.2.2])

/-- The extension of a file name is replaced, or one is added. But where only a dot is left before
it, the name becomes two dots. -/
theorem renameExtension_cases (name : String) :
    Renamed name (renameExtension name "html") ∧ ¬ IsDotted name ∨
      IsDotted name ∧ renameExtension name "html" = ".." := by
  rcases splitExtension_cases name.toList with ⟨hdot, hsplit⟩ |
    ⟨stem, extension, hstem, hextension, hname, hsplit⟩
  · left
    rw [renameExtension_of_none hsplit, String.append_assoc]
    refine ⟨.added hdot, ?_⟩
    rintro ⟨rest, rfl, -⟩
    exact hdot (by simp)
  by_cases hstart : stem = ['.']
  · right
    subst hstart
    refine ⟨⟨String.ofList extension, ?_, by simpa using hextension⟩, ?_⟩
    · exact String.toList_inj.mp (by simp [hname])
    · rw [renameExtension, hsplit]
      rfl
  · left
    refine ⟨?_, not_isDotted_of_append hname hstem hstart⟩
    have hspelled : name = String.ofList stem ++ "." ++ String.ofList extension :=
      String.toList_inj.mp (by simp [hname])
    rw [renameExtension_of_some hsplit hstart, String.append_assoc]
    nth_rewrite 1 [hspelled]
    exact .replaced (by simpa using hstem) (by simpa using hextension)

/-- A name that begins with no dot is renamed in the usual way. -/
theorem renamed_of_not_startsWith (h : name.startsWith "." = false) :
    Renamed name (renameExtension name "html") := by
  rcases renameExtension_cases name with ⟨hrenamed, -⟩ | ⟨hdotted, -⟩
  · exact hrenamed
  · rw [hdotted.startsWith] at h
    cases h

/-- A file name with another extension is the name of an entry, or `..`. -/
theorem isEntryName_renameExtension (name : String) :
    isEntryName (renameExtension name "html") = true ∨ renameExtension name "html" = ".." :=
  (renameExtension_cases name).imp (fun h => h.1.isEntryName) And.right

end IconMarkup.Files
