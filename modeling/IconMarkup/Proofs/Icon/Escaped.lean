import IconMarkup.Proofs.Icon.Cut
import IconMarkup.Proofs.Text.References

/-!
# Shortcodes in written text

It does not matter whether a text is first cut at its shortcodes and then written as markup, or the
other way round (`cut_escapeText`). The characters of a shortcode are written as they are, and the
references that other characters are written by have no colon, so that no shortcode can begin in
one. Hence replacing the shortcodes of a text and writing the result gives the written text with
the markup of an icon in place of each shortcode (`join_render_eq_substituted`).
-/

namespace IconMarkup.Icon

/-- A text with the markup of icons in place of the shortcodes at their positions, from a position
on. -/
def substituted (classes : Classes) (text : List Char) (cursor : Nat) :
    List Shortcode → List Char
  | [] => Text.dropBytes cursor text
  | shortcode :: rest =>
    Text.sliceBytes cursor shortcode.start text ++
      (element classes shortcode.style shortcode.icon).render.toList ++
        substituted classes text shortcode.stop rest

namespace Cut

/-- A shortcode with the text after it as it is written. -/
def escapedMark (mark : Mark) : Mark :=
  { mark with after := Text.escapeText mark.after }

/-- The pieces of a text as they are written. -/
def escaped (pieces : Cut) : Cut :=
  ⟨Text.escapeText pieces.lead, pieces.marks.map escapedMark⟩

/-- The markup of the icon for a shortcode, and the text after it. -/
def markMarkup (classes : Classes) (mark : Mark) : List Char :=
  (element classes mark.style (String.ofList mark.icon)).render.toList ++ mark.after

end Cut

open Cut

variable {cs first icon : List Char} {style : Style}

/-! ### The pieces of a written text -/

private theorem readShortcode?_of_ne {c : Char} (h : c ≠ ':') (cs : List Char) :
    readShortcode? (c :: cs) = none := by
  refine Option.eq_none_iff_forall_ne_some.mpr fun (style, icon, rest) hread => h ?_
  obtain ⟨-, -, hcs⟩ := readShortcode?_eq_some_iff.mp hread
  exact (List.cons.inj hcs).1

/-- No shortcode begins in text without colons. -/
private theorem cut_append_of_notMem (h : ':' ∉ first) (cs : List Char) :
    cut (first ++ cs) = ⟨first ++ (cut cs).lead, (cut cs).marks⟩ := by
  induction first with
  | nil => rfl
  | cons c first ih =>
    rw [List.mem_cons, not_or] at h
    rw [List.cons_append, cut_of_none (readShortcode?_of_ne (Ne.symm h.1) _), ih h.2]
    rfl

/-- The characters of a shortcode have no reference. -/
private theorem textReference?_of_mem_spelling (hicon : ∀ c ∈ icon, isIconChar c) {c : Char}
    (hc : c ∈ spelling style icon) : Text.textReference? c = none := by
  have hname : isIconChar c ∨ c = ':' := by
    have hlead : ∀ d ∈ shortcodeLead, isIconChar d ∨ d = ':' := by
      simp [shortcodeLead, isIconChar]
    simp only [spelling, List.mem_append, List.mem_cons, List.not_mem_nil, or_false] at hc
    rcases hc with ((hc | hc) | rfl | hc) | rfl
    · exact hlead c hc
    · exact .inl (isIconChar_of_mem_keyword style c hc)
    · exact .inr rfl
    · exact .inl (hicon c hc)
    · exact .inr rfl
  rw [Text.textReference?.eq_def]
  split
  · exact absurd hname (by decide)
  · exact absurd hname (by decide)
  · exact absurd hname (by decide)
  · rfl

private theorem escapeText_spelling (hicon : ∀ c ∈ icon, isIconChar c) :
    Text.escapeText (spelling style icon) = spelling style icon := by
  have hkept : ∀ c ∈ spelling style icon, Text.escapeText [c] = [c] := fun c hc =>
    Text.escapeWith_singleton_of_none (textReference?_of_mem_spelling hicon hc)
  generalize spelling style icon = word at hkept
  induction word with
  | nil => rfl
  | cons c word ih =>
    rw [List.forall_mem_cons] at hkept
    rw [Text.escapeText, Text.escapeWith_cons]
    exact congrArg₂ (· ++ ·) hkept.1 (ih hkept.2)

/-- A written text begins with a shortcode exactly if the text does. -/
private theorem readShortcode?_escapeText (cs : List Char) :
    readShortcode? (Text.escapeText cs) =
      (readShortcode? cs).map fun (style, icon, rest) => (style, icon, Text.escapeText rest) := by
  rcases hread : readShortcode? cs with _ | ⟨style, icon, rest⟩
  · refine Option.eq_none_iff_forall_ne_some.mpr fun (style, icon, rest) hwritten => ?_
    obtain ⟨hne, hicon, hcs⟩ := readShortcode?_eq_some_iff.mp hwritten
    -- what is written is decoded to the text, and the shortcode in it to itself
    have hampersand : '&' ∉ spelling style icon := fun hmem =>
      absurd (textReference?_of_mem_spelling hicon hmem) (by decide)
    have htext : cs = spelling style icon ++ Text.unescape rest := by
      rw [← Text.unescape_escapeText cs, hcs, Text.unescape_append hampersand]
    rw [readShortcode?_eq_some_iff.mpr ⟨hne, hicon, htext⟩] at hread
    cases hread
  · obtain ⟨hne, hicon, rfl⟩ := readShortcode?_eq_some_iff.mp hread
    refine readShortcode?_eq_some_iff.mpr ⟨hne, hicon, ?_⟩
    rw [Text.escapeText_append, escapeText_spelling hicon]

/-- Where no shortcode begins, what is written for the first character begins none either. -/
private theorem cut_escapeText_singleton_append {c : Char} (h : readShortcode? (c :: cs) = none) :
    cut (Text.escapeText [c] ++ Text.escapeText cs) =
      ⟨Text.escapeText [c] ++ (cut (Text.escapeText cs)).lead,
        (cut (Text.escapeText cs)).marks⟩ := by
  rcases hc : Text.textReference? c with _ | reference
  · have hkept : Text.escapeText [c] = [c] := Text.escapeWith_singleton_of_none hc
    have hread : readShortcode? (c :: Text.escapeText cs) = none := by
      have hwritten := readShortcode?_escapeText (c :: cs)
      rw [h, ← List.singleton_append, Text.escapeText_append, hkept] at hwritten
      exact hwritten
    rw [hkept, List.singleton_append, cut_of_none hread, List.singleton_append]
  · refine cut_append_of_notMem ?_ _
    have hreplaced : Text.escapeText [c] = reference.toList := Text.escapeWith_singleton_of_some hc
    rw [hreplaced]
    exact (Text.isReference_of_textReference? hc).not_mem (by decide) (by decide)

/-- The pieces of a written text are the pieces of the text as they are written. -/
theorem cut_escapeText (cs : List Char) : cut (Text.escapeText cs) = (cut cs).escaped := by
  induction cs using cut.induct with
  | case1 => simp [Text.escapeText, Text.escapeWith, cut, escaped]
  | case2 c cs style icon rest h ih =>
    have hread := readShortcode?_escapeText (c :: cs)
    have hne : Text.escapeText (c :: cs) ≠ [] := Text.escapeText_ne_nil (List.cons_ne_nil c cs)
    obtain ⟨d, ds, hwritten⟩ := List.exists_cons_of_ne_nil hne
    rw [h, hwritten] at hread
    rw [hwritten, cut_of_some hread, cut_of_some h, ih]
    rfl
  | case3 c cs h ih =>
    rw [← List.singleton_append, Text.escapeText_append, cut_escapeText_singleton_append h, ih,
      List.singleton_append, cut_of_none h]
    exact congrArg (Cut.mk · _) (Text.escapeText_append [c] (cut cs).lead).symm

/-! ### Icons in written text -/

/-- At the positions of its own pieces, a text gets the icons between the pieces. -/
private theorem substituted_shortcodesFrom (classes : Classes) (before lead : List Char)
    (marks : List Mark) :
    substituted classes (before ++ (lead ++ marks.flatMap markText)) (Text.byteLength before)
        (shortcodesFrom (Text.byteLength before + Text.byteLength lead) marks) =
      lead ++ marks.flatMap (markMarkup classes) := by
  induction marks generalizing before lead with
  | nil => simp [shortcodesFrom, substituted, Text.dropBytes_byteLength_append]
  | cons mark marks ih =>
    have ih := ih (before ++ lead ++ spelling mark.style mark.icon) mark.after
    simp only [shortcodesFrom, substituted, Text.sliceBytes_append, Shortcode.stop,
      List.flatMap_cons]
    simp only [Text.byteLength_append, markText, List.append_assoc, Nat.add_assoc] at ih ⊢
    simp [ih, markMarkup]

theorem substituted_scan (classes : Classes) (text : String) :
    substituted classes text.toList 0 (scan text) =
      (cut text.toList).lead ++ (cut text.toList).marks.flatMap (markMarkup classes) := by
  rw [scan, scanFrom_eq_shortcodes]
  -- the positions are those of the pieces, so the text has to be written as its pieces
  conv => lhs; arg 2; rw [← text_cut text.toList]
  simpa [Text.byteLength, Cut.text] using
    substituted_shortcodesFrom classes [] (cut text.toList).lead (cut text.toList).marks

private theorem markupOf_flatMap_markNodes (classes : Classes) (marks : List Mark) :
    markupOf (marks.flatMap (markNodes classes)) =
      (marks.map escapedMark).flatMap (markMarkup classes) := by
  induction marks with
  | nil => rfl
  | cons mark marks ih =>
    rw [List.flatMap_cons, markupOf_append, ih, markNodes, markupOf, markupOf_textNodes,
      List.map_cons, List.flatMap_cons, markMarkup, Element.render, Node.render,
      String.toList_ofList]
    rfl

/-- The markup of what replaces a text consists of its pieces as they are written. -/
theorem markupOf_replace? (classes : Classes) (text : String) :
    markupOf ((replace? classes text).getD [.text text]) =
      (cut text.toList).escaped.lead ++
        (cut text.toList).escaped.marks.flatMap (markMarkup classes) := by
  rw [replace?_eq, escaped]
  split
  · rename_i hmarks
    -- without shortcodes, the text is its only piece
    have htext : (cut text.toList).lead = text.toList := by
      have hpieces := text_cut text.toList
      rwa [Cut.text, hmarks, List.flatMap_nil, List.append_nil] at hpieces
    simp [hmarks, htext, markupOf, Node.markup]
  · rw [Option.getD_some, nodes, markupOf_append, markupOf_textNodes, markupOf_flatMap_markNodes]

private theorem toList_join_render (nodes : List Node) :
    (String.join (nodes.map Node.render)).toList = markupOf nodes := by
  rw [String.toList_join, List.flatMap_map]
  induction nodes with
  | nil => rfl
  | cons node rest ih => rw [List.flatMap_cons, ih, Node.render, String.toList_ofList, markupOf]

/-- Written one after the other, the nodes that replace a text are the written text with an icon in
place of each shortcode that scanning finds in it; and it finds the same icons there as in the text,
in the same order. -/
theorem join_render_eq_substituted (classes : Classes) (text : String) :
    let written := String.ofList (Text.escapeText text.toList)
    let nodes := (replace? classes text).getD [.text text]
    (String.join (nodes.map Node.render)).toList =
        substituted classes written.toList 0 (scan written) ∧
      (scan written).map (fun shortcode => (shortcode.style, shortcode.icon)) =
        (scan text).map (fun shortcode => (shortcode.style, shortcode.icon)) := by
  intro written nodes
  have hcut : cut written.toList = (cut text.toList).escaped := by
    rw [String.toList_ofList, cut_escapeText]
  refine ⟨?_, ?_⟩
  · rw [toList_join_render, markupOf_replace?, substituted_scan, hcut]
  · rw [scan, scan, scanFrom_eq_shortcodes, scanFrom_eq_shortcodes, hcut]
    simp only [map_shortcodesFrom (fun style icon => (style, icon)), escaped, List.map_map]
    rfl

example : String.ofList (substituted {} "&amp;:fa-solid:x:".toList 0 (scan "&amp;:fa-solid:x:")) =
    "&amp;<i class=\"fa-solid fa-x\" aria-hidden=\"true\"></i>" := by
  decide +kernel

end IconMarkup.Icon
