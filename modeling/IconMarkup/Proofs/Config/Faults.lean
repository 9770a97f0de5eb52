import Mathlib.Data.List.DropRight
import IconMarkup.Config.Settings

/-!
# Settings without faults

Which settings have no faults: the class prefix and each further class are words, and each skipped
tag has something besides white space (`Settings.diagnose_eq_nil_iff`).
-/

namespace IconMarkup.Config

variable {s tag : String}

/-- Whether a text can be one class: it has characters, none of them white space. -/
structure IsWord (s : String) : Prop where
  ne_empty : s ≠ ""
  noBlank : ∀ c ∈ s.toList, Text.isBlank c = false

/-- Whether settings can be used. -/
structure Settings.Sound (settings : Settings) : Prop where
  classPrefix : IsWord settings.icons.classPrefix
  additional : ∀ name ∈ settings.icons.additional, IsWord name
  skipElements : ∀ tag ∈ settings.render.skipElements, ∃ c ∈ tag.toList, Text.isBlank c = false

/-- A text has no blank exactly if each of its characters is none. -/
theorem hasBlank_eq_false_iff : hasBlank s = false ↔ ∀ c ∈ s.toList, Text.isBlank c = false := by
  rw [hasBlank, List.any_eq_false]
  simp

private theorem isWord_iff : IsWord s ↔ s.isEmpty = false ∧ hasBlank s = false := by
  rw [hasBlank_eq_false_iff]
  refine ⟨fun h => ⟨?_, h.noBlank⟩, fun h => ⟨?_, h.2⟩⟩
  · simpa using h.ne_empty
  · simpa using h.1

/-- A class prefix has no fault exactly if it is one word. -/
theorem diagnosePrefix_eq_nil_iff : diagnosePrefix s = [] ↔ IsWord s := by
  rw [diagnosePrefix, isWord_iff]
  rcases s.isEmpty <;> rcases hasBlank s <;> simp

/-- An additional class has no fault exactly if it is one word. -/
theorem diagnoseClass_eq_nil_iff : diagnoseClass s = [] ↔ IsWord s := by
  rw [diagnoseClass, isWord_iff]
  rcases s.isEmpty <;> rcases hasBlank s <;> simp

private theorem trimStart_eq_nil_iff {cs : List Char} :
    Text.trimStart cs = [] ↔ ∀ c ∈ cs, Text.isBlank c = true :=
  List.dropWhile_eq_nil_iff

/-- Nothing is left of a text without its blanks at the end exactly if it has only blanks. -/
private theorem trimEnd_eq_nil_iff {cs : List Char} :
    Text.trimEnd cs = [] ↔ ∀ c ∈ cs, Text.isBlank c = true :=
  List.rdropWhile_eq_nil_iff

/-- A text of white space only has nothing left when it is stripped. -/
private theorem isEmpty_trim_iff :
    (Text.trim s).isEmpty = true ↔ ∀ c ∈ s.toList, Text.isBlank c = true := by
  have hstart : Text.trimEnd (Text.trimStart s.toList) = [] ↔ Text.trimStart s.toList = [] := by
    rw [trimEnd_eq_nil_iff]
    refine ⟨fun h => ?_, fun h => by simp [h]⟩
    -- what is left begins with a character that is not white space
    rcases hleft : Text.trimStart s.toList with _ | ⟨c, cs⟩
    · rfl
    · have hhead := List.head?_dropWhile_not Text.isBlank s.toList
      rw [← Text.trimStart, hleft] at hhead
      have hfirst : Text.isBlank c = true := h c (by simp [hleft])
      exact absurd hfirst (by simpa using hhead)
  rw [← trimStart_eq_nil_iff, ← hstart, Text.trim]
  simp

/-- The render settings have no fault exactly if each skipped element has a name that is more than
blanks. -/
theorem RenderSettings.diagnose_eq_nil_iff {settings : RenderSettings} :
    settings.diagnose = [] ↔ ∀ tag ∈ settings.skipElements, ∃ c ∈ tag.toList,
      Text.isBlank c = false := by
  rw [diagnose, ite_eq_right_iff]
  simp only [List.any_eq_true, isEmpty_trim_iff]
  simp

/-- Settings have no faults if and only if they can be used. -/
theorem Settings.diagnose_eq_nil_iff {settings : Settings} :
    settings.diagnose = [] ↔ settings.Sound := by
  rw [diagnose, diagnoseClasses, List.append_eq_nil_iff, List.append_eq_nil_iff,
    List.flatMap_eq_nil_iff, diagnosePrefix_eq_nil_iff, RenderSettings.diagnose_eq_nil_iff]
  simp only [diagnoseClass_eq_nil_iff]
  exact ⟨fun ⟨⟨hword, hclasses⟩, hskips⟩ => ⟨hword, hclasses, hskips⟩,
    fun ⟨hword, hclasses, hskips⟩ => ⟨⟨hword, hclasses⟩, hskips⟩⟩

end IconMarkup.Config
