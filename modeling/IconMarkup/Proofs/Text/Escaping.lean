import IconMarkup.Text.Escape
import IconMarkup.Text.Unescape

/-!
# Escaped texts decode to what was written

`unescape_escapeWith_append`: decoding undoes escaping, whatever follows the escaped text. It holds
for every table of references that passes `Decodes`, that is, for which each reference decodes to
its own character and the ampersand has a reference; the tables for running text and for attribute
values are two of them. A character with a reference never stands in an escaped text by itself
(`not_mem_escapeWith`), so that neither a tag nor the end of a quoted value can come out of one.
What ampersands are left begin the references that were written (`MarksReferences`).
-/

namespace IconMarkup.Text

/-- A table of references that decoding undoes. -/
structure Decodes (reference? : Char → Option String) : Prop where
  /-- The character that begins every reference is never written as it is. -/
  ampersand : reference? '&' ≠ none
  /-- Each reference is an ampersand and a name that is read as its character, whatever follows. -/
  reads : ∀ {c reference}, reference? c = some reference → ∃ name,
    reference.toList = '&' :: name ∧ ∀ rest, readReference? (name ++ rest) = some (c, rest)

variable {reference? : Char → Option String}

theorem escapeWith_cons (c : Char) (cs : List Char) :
    escapeWith reference? (c :: cs) = escapeWith reference? [c] ++ escapeWith reference? cs := by
  simp [escapeWith]

theorem escapeWith_singleton_of_none {c : Char} (h : reference? c = none) :
    escapeWith reference? [c] = [c] := by
  simp [escapeWith, h]

theorem escapeWith_singleton_of_some {c : Char} {reference : String}
    (h : reference? c = some reference) :
    escapeWith reference? [c] = reference.toList := by
  simp [escapeWith, h]

/-- A written character decodes to itself, whatever follows. -/
private theorem unescape_escapeWith_singleton_append (h : Decodes reference?) (c : Char)
    (rest : List Char) :
    unescape (escapeWith reference? [c] ++ rest) = c :: unescape rest := by
  -- an ampersand is always written as a reference, and other characters stand for themselves
  rcases hc : reference? c with _ | reference
  · have hne : c ≠ '&' := by
      rintro rfl
      exact h.ampersand hc
    rw [escapeWith_singleton_of_none hc, List.singleton_append, unescape, if_neg hne]
  · obtain ⟨name, hname, hread⟩ := h.reads hc
    rw [escapeWith_singleton_of_some hc, hname, List.cons_append, unescape, if_pos rfl]
    split
    · rename_i decoded rest' hdecoded
      rw [hread] at hdecoded
      cases hdecoded
      rfl
    · rename_i hdecoded
      rw [hread] at hdecoded
      cases hdecoded

/-- Decoding undoes escaping, whatever follows the escaped text. -/
theorem unescape_escapeWith_append (h : Decodes reference?) (cs rest : List Char) :
    unescape (escapeWith reference? cs ++ rest) = cs ++ unescape rest := by
  induction cs with
  | nil => rfl
  | cons c cs ih =>
    rw [escapeWith_cons, List.append_assoc, unescape_escapeWith_singleton_append h, ih,
      List.cons_append]

theorem unescape_escapeWith (h : Decodes reference?) (cs : List Char) :
    unescape (escapeWith reference? cs) = cs := by
  simpa [unescape] using unescape_escapeWith_append h cs []

/-- A character that has a reference, and is in none, is in no escaped text. -/
theorem not_mem_escapeWith {c : Char} (hsome : reference? c ≠ none)
    (hmem : ∀ d reference, reference? d = some reference → c ∉ reference.toList)
    (cs : List Char) : c ∉ escapeWith reference? cs := by
  induction cs with
  | nil => simp [escapeWith]
  | cons d cs ih =>
    rw [escapeWith_cons, List.mem_append]
    refine not_or.mpr ⟨?_, ih⟩
    rcases hd : reference? d with _ | reference
    · rw [escapeWith_singleton_of_none hd, List.mem_singleton]
      rintro rfl
      exact hsome hd
    · rw [escapeWith_singleton_of_some hd]
      exact hmem d reference hd

/-! ### The two tables -/

theorem decodes_textReference? : Decodes textReference? where
  ampersand := by simp [textReference?]
  reads := by
    intro c reference h
    unfold textReference? at h
    split at h <;> cases h
    · exact ⟨"amp;".toList, rfl, fun _ => rfl⟩
    · exact ⟨"lt;".toList, rfl, fun _ => rfl⟩
    · exact ⟨"gt;".toList, rfl, fun _ => rfl⟩

private theorem decodes_attributeReference? : Decodes attributeReference? where
  ampersand := by simp [attributeReference?]
  reads := by
    intro c reference h
    unfold attributeReference? at h
    split at h <;> cases h
    · exact ⟨"amp;".toList, rfl, fun _ => rfl⟩
    · exact ⟨"quot;".toList, rfl, fun _ => rfl⟩

/-- Running text decodes to what was written. -/
theorem unescape_escapeText (cs : List Char) : unescape (escapeText cs) = cs :=
  unescape_escapeWith decodes_textReference? cs

/-- An attribute value decodes to what was written. -/
theorem unescape_escapeAttribute (cs : List Char) : unescape (escapeAttribute cs) = cs :=
  unescape_escapeWith decodes_attributeReference? cs

theorem escapeText_ne_nil {cs : List Char} (h : cs ≠ []) : escapeText cs ≠ [] := by
  intro hnil
  have hcs := unescape_escapeText cs
  rw [hnil, unescape] at hcs
  exact h hcs.symm

/-- Whether a reference is written as an ampersand, letters and a semicolon. -/
def IsReference (reference : String) : Prop :=
  ∃ name, reference.toList = '&' :: name ∧ ∀ c ∈ name, c.isAlpha ∨ c = ';'

theorem isReference_of_textReference? {c : Char} {reference : String}
    (h : textReference? c = some reference) : IsReference reference := by
  unfold textReference? at h
  split at h <;> cases h
  · exact ⟨"amp;".toList, rfl, by simp⟩
  · exact ⟨"lt;".toList, rfl, by simp⟩
  · exact ⟨"gt;".toList, rfl, by simp⟩

private theorem isReference_of_attributeReference? {c : Char} {reference : String}
    (h : attributeReference? c = some reference) : IsReference reference := by
  unfold attributeReference? at h
  split at h <;> cases h
  · exact ⟨"amp;".toList, rfl, by simp⟩
  · exact ⟨"quot;".toList, rfl, by simp⟩

theorem IsReference.not_mem {reference : String} {c : Char} (h : IsReference reference)
    (hampersand : c ≠ '&') (hname : ¬ (c.isAlpha ∨ c = ';')) : c ∉ reference.toList := by
  obtain ⟨name, hreference, hletters⟩ := h
  rw [hreference, List.mem_cons]
  exact not_or.mpr ⟨hampersand, fun hmem => hname (hletters c hmem)⟩

/-- No tag begins in written text. -/
theorem lt_not_mem_escapeText (cs : List Char) : '<' ∉ escapeText cs := by
  refine not_mem_escapeWith (by simp [textReference?]) (fun _ reference h => ?_) cs
  exact (isReference_of_textReference? h).not_mem (by decide) (by decide)

/-- No tag ends in written text. -/
private theorem gt_not_mem_escapeText (cs : List Char) : '>' ∉ escapeText cs := by
  refine not_mem_escapeWith (by simp [textReference?]) (fun _ reference h => ?_) cs
  exact (isReference_of_textReference? h).not_mem (by decide) (by decide)

/-- A written attribute value does not end before its closing quote. -/
theorem quote_not_mem_escapeAttribute (cs : List Char) : '"' ∉ escapeAttribute cs := by
  refine not_mem_escapeWith (by simp [attributeReference?]) (fun _ reference h => ?_) cs
  exact (isReference_of_attributeReference? h).not_mem (by decide) (by decide)

/-! ### Ampersands -/

/-- Whether each ampersand in the written form of a text begins a reference that was written there
for a character of the text. -/
def MarksReferences (reference? : Char → Option String) (cs : List Char) : Prop :=
  ∀ before after, escapeWith reference? cs = before ++ '&' :: after →
    ∃ first c second reference, cs = first ++ c :: second ∧ reference? c = some reference ∧
      before = escapeWith reference? first ∧
      '&' :: after = reference.toList ++ escapeWith reference? second

/-- An ampersand in what is written for one character is the first character of its reference. -/
private theorem eq_nil_of_escapeWith_singleton (hampersand : reference? '&' ≠ none)
    (hreference : ∀ {c reference}, reference? c = some reference → IsReference reference)
    {c : Char} {before after : List Char} (h : escapeWith reference? [c] = before ++ '&' :: after) :
    ∃ reference, reference? c = some reference ∧ before = [] ∧
      reference.toList = '&' :: after := by
  rcases hc : reference? c with _ | reference
  · rw [escapeWith_singleton_of_none hc, List.singleton_eq_append_iff] at h
    rcases h with ⟨-, hlast⟩ | ⟨-, hlast⟩
    · obtain ⟨hchar, -⟩ := List.cons.inj hlast
      exact absurd (hchar ▸ hc) hampersand
    · cases hlast
  · rw [escapeWith_singleton_of_some hc] at h
    rcases before with _ | ⟨d, before⟩
    · exact ⟨reference, rfl, rfl, h⟩
    · obtain ⟨name, hname, hletters⟩ := hreference hc
      rw [hname, List.cons_append, List.cons.injEq] at h
      have hmem : '&' ∈ name := by simp [h.2]
      exact absurd (hletters _ hmem) (by decide)

/-- If the ampersand has a reference, and references have it in front alone, then each ampersand in
a written text begins a reference. -/
private theorem marksReferences (hampersand : reference? '&' ≠ none)
    (hreference : ∀ {c reference}, reference? c = some reference → IsReference reference)
    (cs : List Char) : MarksReferences reference? cs := by
  induction cs with
  | nil =>
    intro before after h
    exact absurd h (by simp [escapeWith])
  | cons c cs ih =>
    intro before after h
    rw [escapeWith_cons, List.append_eq_append_iff] at h
    -- the ampersand is written either for the first character or for a later one
    have hlater : ∀ between, before = escapeWith reference? [c] ++ between →
        escapeWith reference? cs = between ++ '&' :: after →
        ∃ first d second reference, c :: cs = first ++ d :: second ∧
          reference? d = some reference ∧ before = escapeWith reference? first ∧
          '&' :: after = reference.toList ++ escapeWith reference? second := by
      intro between hbefore hcs
      obtain ⟨first, d, second, reference, rfl, hd, rfl, hafter⟩ := ih between after hcs
      refine ⟨c :: first, d, second, reference, rfl, hd, ?_, hafter⟩
      rw [hbefore, ← escapeWith_cons]
    rcases h with ⟨between, hbefore, hcs⟩ | ⟨between, hc, hafter⟩
    · exact hlater between hbefore hcs
    · rcases between with _ | ⟨d, between⟩
      · exact hlater [] (by simpa using hc.symm) (by simpa using hafter.symm)
      · rw [List.cons_append, List.cons.injEq] at hafter
        obtain ⟨rfl, rfl⟩ := hafter
        obtain ⟨reference, hsome, rfl, hwritten⟩ :=
          eq_nil_of_escapeWith_singleton hampersand hreference hc
        refine ⟨[], c, cs, reference, rfl, hsome, rfl, ?_⟩
        rw [hwritten, List.cons_append]

/-- Decoding undoes escaping, whatever follows, in running text and in attribute values. Written
text has no angle brackets and a written value no double quote, and each ampersand in them begins a
reference that was written for a character. -/
theorem unescape_escape_append (cs rest : List Char) :
    unescape (escapeText cs ++ rest) = cs ++ unescape rest ∧
      unescape (escapeAttribute cs ++ rest) = cs ++ unescape rest ∧
      unescape (escapeText cs) = cs ∧ unescape (escapeAttribute cs) = cs ∧
      '<' ∉ escapeText cs ∧ '>' ∉ escapeText cs ∧ '"' ∉ escapeAttribute cs ∧
      MarksReferences textReference? cs ∧ MarksReferences attributeReference? cs := by
  have htext : MarksReferences textReference? cs :=
    marksReferences decodes_textReference?.ampersand isReference_of_textReference? cs
  have hattribute : MarksReferences attributeReference? cs :=
    marksReferences decodes_attributeReference?.ampersand isReference_of_attributeReference? cs
  exact ⟨unescape_escapeWith_append decodes_textReference? cs rest,
    unescape_escapeWith_append decodes_attributeReference? cs rest, unescape_escapeText cs,
    unescape_escapeAttribute cs, lt_not_mem_escapeText cs, gt_not_mem_escapeText cs,
    quote_not_mem_escapeAttribute cs, htext, hattribute⟩

example : unescape (escapeText "&lt;".toList ++ "lt;".toList) = "&lt;lt;".toList := by
  decide +kernel

end IconMarkup.Text
