import IconMarkup.Proofs.Config.Faults
import IconMarkup.Proofs.Icon.Agreement
import IconMarkup.Proofs.Icon.Markup
import IconMarkup.Proofs.Icon.Scanning

/-!
# Class lists of icons

The class list of an icon is written with blanks between the classes and read as words. It is read
as it was exactly if each class in it is a word (`words_intercalate_iff`), and the classes of an
icon are words exactly if the settings for them have no fault, apart from an empty class prefix:
with an empty prefix the classes still begin with a hyphen. So settings without faults keep class
lists intact, in the tree and in the markup (`diagnose_keeps_classes`).
-/

namespace IconMarkup

open Config

namespace Text

variable {separates : Char → Bool} {word cs : List Char} {c : Char}

/-! ### Words -/

/-- What stands between separating characters has none of them, and is not empty. -/
private theorem mem_splitAtRuns (h : word ∈ splitAtRuns separates cs) :
    word ≠ [] ∧ ∀ c ∈ word, separates c = false := by
  induction cs using splitAtRuns.induct separates generalizing word with
  | case1 => cases h
  | case2 c hc => simp [splitAtRuns, hc] at h
  | case3 c hc =>
    obtain rfl : word = [c] := by simpa [splitAtRuns, hc] using h
    simpa using hc
  | case4 c d cs hc ih =>
    rw [splitAtRuns, if_pos hc] at h
    exact ih h
  | case5 c d cs hc hd ih =>
    rw [splitAtRuns, if_neg hc, if_pos hd] at h
    rcases List.mem_cons.mp h with rfl | h
    · simpa using hc
    · exact ih h
  | case6 c d cs hc hd hnil ih =>
    rw [splitAtRuns, if_neg hc, if_neg hd, hnil] at h
    obtain rfl := List.mem_singleton.mp h
    simpa using hc
  | case7 c d cs hc hd first rest hcons ih =>
    rw [splitAtRuns, if_neg hc, if_neg hd, hcons] at h
    rw [hcons] at ih
    rcases List.mem_cons.mp h with rfl | h
    · have hfirst := ih List.mem_cons_self
      simpa [hc] using hfirst.2
    · exact ih (List.mem_cons_of_mem _ h)

private theorem splitAtRuns_cons_of_separates (hc : separates c = true) (cs : List Char) :
    splitAtRuns separates (c :: cs) = splitAtRuns separates cs := by
  cases cs <;> simp [splitAtRuns, hc]

/-- A word that is followed by nothing, or by a separating character, is the first one. -/
theorem splitAtRuns_append (hne : word ≠ []) (hword : ∀ c ∈ word, separates c = false)
    (hcs : ∀ c ∈ cs.head?, separates c = true) :
    splitAtRuns separates (word ++ cs) = word :: splitAtRuns separates cs := by
  induction word with
  | nil => exact absurd rfl hne
  | cons c word ih =>
    rw [List.forall_mem_cons] at hword
    rcases word with _ | ⟨d, word⟩
    · cases cs with
      | nil => simp [splitAtRuns, hword.1]
      | cons d cs => simp [splitAtRuns, hword.1, hcs d rfl]
    · have hrest := ih (List.cons_ne_nil d word) hword.2
      rw [List.forall_mem_cons] at hword
      rw [List.cons_append] at hrest
      simp [splitAtRuns, hword.1, hword.2.1, hrest]

theorem splitAtRuns_intercalate {words : List (List Char)} (hc : separates c = true)
    (h : ∀ word ∈ words, word ≠ [] ∧ ∀ d ∈ word, separates d = false) :
    splitAtRuns separates ([c].intercalate words) = words := by
  induction words with
  | nil => rfl
  | cons word words ih =>
    rw [List.forall_mem_cons] at h
    obtain ⟨⟨hne, hword⟩, hrest⟩ := h
    rcases words with _ | ⟨next, words⟩
    · have hlast : splitAtRuns separates (word ++ []) = word :: splitAtRuns separates [] :=
        splitAtRuns_append hne hword (by simp)
      rw [List.append_nil] at hlast
      rw [List.intercalate_singleton, hlast, splitAtRuns]
    · rw [List.intercalate_cons_cons, List.append_assoc,
        splitAtRuns_append hne hword (by simpa using hc), List.singleton_append,
        splitAtRuns_cons_of_separates hc, ih hrest]

/-- Texts with blanks between them are read back as words exactly if all of them are words. -/
theorem words_intercalate_iff {texts : List String} :
    words (String.intercalate " " texts) = texts ↔ ∀ text ∈ texts, IsWord text := by
  constructor
  · intro h text htext
    rw [← h, words, List.mem_map] at htext
    obtain ⟨word, hword, rfl⟩ := htext
    obtain ⟨hne, hblank⟩ := mem_splitAtRuns hword
    exact ⟨by simpa using hne, by simpa using hblank⟩
  · intro h
    have hwords : ∀ word ∈ texts.map String.toList,
        word ≠ [] ∧ ∀ d ∈ word, isBlank d = false := by
      refine List.forall_mem_map.mpr fun text htext => ⟨?_, (h text htext).noBlank⟩
      simpa using (h text htext).ne_empty
    rw [words, String.toList_intercalate]
    exact (congrArg (List.map String.ofList)
      (splitAtRuns_intercalate (by decide : isBlank ' ' = true) hwords)).trans (by simp)

end Text

/-! ### Faults -/

namespace Config

/-- The fault of an empty class prefix. -/
def emptyPrefix : Diagnostic :=
  ⟨classPrefixField, "must not be empty", some "use \"fa\" for Font Awesome 6 class names"⟩

private theorem forall_diagnosePrefix_iff {s : String} :
    (∀ fault ∈ diagnosePrefix s, fault = emptyPrefix) ↔ hasBlank s = false := by
  rw [diagnosePrefix]
  by_cases hempty : s.isEmpty = true
  · rw [if_pos hempty, String.isEmpty_iff.mp hempty]
    simp [emptyPrefix, hasBlank]
  · rw [if_neg hempty]
    cases hasBlank s <;> simp [emptyPrefix]

private theorem forall_diagnoseClass_iff {s : String} :
    (∀ fault ∈ diagnoseClass s, fault = emptyPrefix) ↔ IsWord s := by
  have hne : classPrefixField ≠ additionalClassesField := by decide
  have hfield : ∀ fault ∈ diagnoseClass s, fault ≠ emptyPrefix := by
    rintro fault hfault rfl
    rw [diagnoseClass] at hfault
    split at hfault
    · exact absurd (List.mem_singleton.mp hfault) (by simp [emptyPrefix, hne])
    · split at hfault
      · exact absurd (List.mem_singleton.mp hfault) (by simp [emptyPrefix, hne])
      · cases hfault
  rw [← diagnoseClass_eq_nil_iff, List.eq_nil_iff_forall_not_mem]
  exact ⟨fun h fault hfault => hfield fault hfault (h fault hfault),
    fun h fault hfault => absurd hfault (h fault)⟩

/-- Apart from an empty prefix, settings for classes have no fault exactly if the prefix has no
white space and the further classes are words. -/
theorem forall_diagnoseClasses_iff {classes : Icon.Classes} :
    (∀ fault ∈ diagnoseClasses classes, fault = emptyPrefix) ↔
      hasBlank classes.classPrefix = false ∧ ∀ name ∈ classes.additional, IsWord name := by
  rw [diagnoseClasses, List.forall_mem_append, forall_diagnosePrefix_iff, List.forall_mem_flatMap]
  simp only [forall_diagnoseClass_iff]

end Config

/-! ### Icons -/

namespace Icon

variable {classes : Classes} {style : Style} {icon : String}

private theorem toNat_bounds_of_isAlphanum {c : Char} (h : c.isAlphanum = true) :
    48 ≤ c.toNat ∧ c.toNat ≤ 122 := by
  have halpha : c.isAlpha = (c.isUpper || c.isLower) := rfl
  have hupper : c.isUpper = decide (c.val ≥ 'A'.val ∧ c.val ≤ 'Z'.val) := rfl
  have hlower : c.isLower = (decide (c.val ≥ 'a'.val) && decide (c.val ≤ 'z'.val)) := rfl
  simp only [Char.isAlphanum, halpha, hupper, hlower, Char.isDigit, Bool.or_eq_true,
    Bool.and_eq_true, decide_eq_true_eq, ge_iff_le, UInt32.le_iff_toNat_le] at h
  rcases h with (h | h) | h <;>
    exact ⟨Nat.le_trans (by decide) h.1, Nat.le_trans h.2 (by decide)⟩

private theorem isBlank_of_isIconChar {c : Char} (h : isIconChar c = true) :
    Text.isBlank c = false := by
  rw [isIconChar, Bool.or_eq_true, beq_iff_eq] at h
  rcases h with halphanum | rfl
  · have hbounds := toNat_bounds_of_isAlphanum halphanum
    simp only [Text.isBlank, Bool.or_eq_false_iff, Bool.and_eq_false_iff, decide_eq_false_iff_not,
      beq_eq_false_iff_ne]
    omega
  · decide

/-- A class with a hyphen after the prefix is a word if the prefix has no white space. -/
private theorem isWord_prefixed_iff {word : String} (h : ∀ c ∈ word.toList, isIconChar c = true) :
    IsWord (classes.classPrefix ++ "-" ++ word) ↔ hasBlank classes.classPrefix = false := by
  rw [hasBlank_eq_false_iff]
  constructor
  · intro hword c hc
    exact hword.noBlank c (by simp [hc])
  · intro hprefix
    have hhyphen : classes.classPrefix ++ "-" ++ word ≠ "" := fun hempty =>
      absurd (String.append_eq_empty_iff.mp (String.append_eq_empty_iff.mp hempty).1).2 (by decide)
    refine ⟨hhyphen, fun c hc => ?_⟩
    rw [String.toList_append, String.toList_append, List.mem_append, List.mem_append] at hc
    rcases hc with (hc | hc) | hc
    · exact hprefix c hc
    · obtain rfl : c = '-' := by simpa using hc
      decide
    · exact isBlank_of_isIconChar (h c hc)

/-- The classes of an icon are words exactly if the settings for them have no fault, apart from an
empty prefix. -/
theorem isWord_of_iff (hicon : IsIconName icon) :
    (∀ name ∈ classes.of style icon, IsWord name) ↔
      ∀ fault ∈ diagnoseClasses classes, fault = emptyPrefix := by
  rw [forall_diagnoseClasses_iff, Classes.of, List.forall_mem_cons, List.forall_mem_cons,
    isWord_prefixed_iff (isIconChar_of_mem_keyword style),
    isWord_prefixed_iff (isIconName_iff.mp hicon).2]
  exact ⟨fun h => h.2, fun h => ⟨h.1, h⟩⟩

theorem classes_element (classes : Classes) (style : Style) (icon : String) :
    (element classes style icon).classes =
      Text.words (String.intercalate " " (classes.of style icon)) := by
  rw [Element.classes, attributes_element]
  simp [Attributes.get?]

/-- An icon has the classes that it is given exactly if the settings for them have no fault, apart
from an empty prefix. -/
theorem classes_element_iff (hicon : IsIconName icon) :
    (element classes style icon).classes = classes.of style icon ↔
      ∀ fault ∈ diagnoseClasses classes, fault = emptyPrefix := by
  rw [classes_element, Text.words_intercalate_iff, isWord_of_iff hicon]

/-- The elements at the top of a document that is read. -/
def elementsRead (markup : String) : List Element :=
  (Document.ofHtml markup).root.children.filterMap Node.element?

/-- An icon is read back from its markup with the same classes. -/
private theorem map_classes_elementsRead (classes : Classes) (style : Style) (icon : String) :
    (elementsRead (element classes style icon).render).map Element.classes =
      [(element classes style icon).classes] := by
  have hcanonical : (Document.ofNodes [(element classes style icon).toNode]).Canonical :=
    ⟨rfl, rfl, List.isChain_singleton _, canonical_element classes style icon, trivial⟩
  have hrender : (Document.ofNodes [(element classes style icon).toNode]).render =
      (element classes style icon).render := by
    rw [← String.toList_inj, toList_render_ofNodes, Element.render, Node.render,
      String.toList_ofList, markupOf, markupOf, List.append_nil]
  have hread := ofHtml_render_eq_arranged hcanonical
  rw [hrender] at hread
  have harranged : (element classes style icon).attributes.arranged.get? "class" =
      (element classes style icon).attributes.get? "class" := by
    rw [attributes_element]
    simp [Attributes.arranged, Attributes.get?]
  rw [elementsRead, hread, Element.classes, ← harranged]
  rfl

end Icon

/-- What is listed for a document are icons with their classes. -/
private theorem isIconName_of_mem_collect {document : Document} {settings : Settings}
    {listed : FoundIcon} (h : listed ∈ collect document settings) :
    Icon.IsIconName listed.icon ∧
      listed.classes = settings.icons.of listed.style listed.icon := by
  obtain ⟨text, -, htext⟩ := List.mem_flatMap.mp h
  obtain ⟨shortcode, hshortcode, rfl⟩ := List.mem_map.mp htext
  obtain ⟨_, icon, _, -, heq, hicon⟩ := Icon.exists_read_of_mem_scanFrom hshortcode
  have hname : shortcode.icon = String.ofList icon := congrArg (·.icon) heq
  exact ⟨hname ▸ hicon, rfl⟩

/-- Settings keep the class lists of icons exactly if they have no fault that concerns classes,
apart from an empty class prefix. With settings that have no fault at all, the icons that a document
gets have the classes that are listed for it, in order, and so has each of them when its markup is
read. -/
theorem diagnose_keeps_classes (settings : Settings) :
    (∀ style icon, Icon.IsIconName icon →
      ((Icon.element settings.icons style icon).classes = settings.icons.of style icon ↔
        ∀ fault ∈ diagnoseClasses settings.icons, fault = emptyPrefix)) ∧
      (settings.diagnose = [] → ∀ document : Document,
        (document.withIcons settings).1 =
            ⟨{ document.root with children := afterOf (iconEdits document settings) }⟩ ∧
          ((insertedOf (iconEdits document settings)).filterMap Node.element?).map
              Element.classes =
            (collect document settings).map (·.classes) ∧
          ∀ listed ∈ collect document settings,
            (Icon.elementsRead (Icon.element settings.icons listed.style listed.icon).render).map
              Element.classes = [listed.classes]) := by
  refine ⟨fun _ _ => Icon.classes_element_iff, fun hsound document => ?_⟩
  have hfaults : ∀ fault ∈ diagnoseClasses settings.icons, fault = emptyPrefix := by
    rw [Settings.diagnose, List.append_eq_nil_iff] at hsound
    simp [hsound.1]
  have hkept : ∀ listed ∈ collect document settings,
      (Icon.element settings.icons listed.style listed.icon).classes = listed.classes := by
    intro listed hlisted
    obtain ⟨hname, hclasses⟩ := isIconName_of_mem_collect hlisted
    rw [hclasses, Icon.classes_element_iff hname]
    exact hfaults
  refine ⟨fst_withIcons document settings, ?_, fun listed hlisted => ?_⟩
  · rw [filterMap_insertedOf_iconEdits, List.map_map]
    exact List.map_congr_left hkept
  · rw [Icon.map_classes_elementsRead, hkept listed hlisted]

/-- The settings that are used by themselves keep the class list of a cup; with a class of two words
it is read as another list. -/
theorem diagnose_keeps_classes_cup :
    let cup := Document.ofNodes [.text "a :fa-solid:coffee: to go"]
    let spaced : Settings := { icons := { additional := ["to go"] } }
    Icon.IsIconName "coffee" ∧ Settings.diagnose {} = [] ∧
      ((insertedOf (iconEdits cup {})).filterMap Node.element?).map Element.classes =
        [["fa-solid", "fa-coffee"]] ∧
      (Icon.element spaced.icons .solid "coffee").classes ≠
        ["fa-solid", "fa-coffee", "to go"] := by
  intro cup spaced
  have hname : Icon.IsIconName "coffee" := ⟨by decide, by simp⟩
  have hsound : Settings.diagnose {} = [] := by decide
  have hlisted : (collect cup {}).map (·.classes) = [["fa-solid", "fa-coffee"]] := by
    decide +kernel
  refine ⟨hname, hsound, ((diagnose_keeps_classes {}).2 hsound cup).2.1.trans hlisted, fun h => ?_⟩
  have hfaults := ((diagnose_keeps_classes spaced).1 .solid "coffee" hname).mp h
  exact absurd hfaults (by decide)

end IconMarkup
