import Mathlib.Algebra.GroupWithZero.Nat
import IconMarkup.Proofs.Icon.Processing
import IconMarkup.Proofs.Tree.Edit

/-!
# Found icons and inserted icons

`collect` lists the shortcodes of a document and `Document.withIcons` puts icons in their place.
`collect_agrees_with_withIcons`: the two agree, on every tree and with every skip list. The icons
that are inserted are those of the list, one each and in the same order, the number of replaced
texts is the number of texts with an entry in the list, and apart from the listed shortcodes no
byte of text is lost or added.
-/

namespace IconMarkup

open IconMarkup.Config
open Icon.Cut

/-- The node as an element, if it is one. -/
def Node.element? : Node → Option Element
  | .element tag attributes children => some ⟨tag, attributes, children⟩
  | _ => none

/-! ### One text -/

namespace Icon

/-- What is found at a mark of a text. -/
def Mark.found (classes : Classes) (mark : Mark) : FoundIcon :=
  ⟨String.ofList (spelling mark.style mark.icon), mark.style, String.ofList mark.icon,
    classes.of mark.style (String.ofList mark.icon)⟩

/-- The shortcodes found in a text are its marks. -/
theorem foundIn_eq (classes : Classes) (text : String) :
    foundIn classes text = (cut text.toList).marks.map (Mark.found classes) := by
  -- the positions that scanning gives the shortcodes do not matter
  have h := map_shortcodesFrom
    (fun style icon => (⟨String.ofList (spelling style icon.toList), style, icon,
      classes.of style icon⟩ : FoundIcon))
    (0 + Text.byteLength (cut text.toList).lead) (cut text.toList).marks
  simp only [← scanFrom_eq_shortcodes, String.toList_ofList] at h
  exact h

theorem filterMap_textNodes (cs : List Char) :
    (textNodes cs).filterMap Node.element? = [] := by
  rw [textNodes]
  split <;> simp [Node.element?]

theorem filterMap_flatMap_markNodes (classes : Classes) (marks : List Mark) :
    (marks.flatMap (markNodes classes)).filterMap Node.element? =
      marks.map fun mark => element classes mark.style (String.ofList mark.icon) := by
  induction marks with
  | nil => rfl
  | cons mark marks ih =>
    simp [markNodes, filterMap_textNodes, Element.toNode, Node.element?, ih]

/-- The elements in the answer to a text are the icons of what is found in it. -/
private theorem filterMap_replace? (classes : Classes) (text : String) :
    ((replace? classes text).getD []).filterMap Node.element? =
      (foundIn classes text).map fun found => element classes found.style found.icon := by
  rw [replace?_eq, foundIn_eq]
  split
  · rename_i h
    simp [h]
  · simp [nodes, filterMap_textNodes, filterMap_flatMap_markNodes, Mark.found]

private theorem textContents_textNodes (cs : List Char) : textContents (textNodes cs) = cs := by
  rw [textNodes]
  split <;> simp_all [textContents, Node.textContent]

/-- A text is as long as the text of its pieces and its shortcodes together. -/
private theorem byteLength_flatMap_markText (classes : Classes) (marks : List Mark) :
    Text.byteLength (marks.flatMap markText) =
      Text.byteLength (textContents (marks.flatMap (markNodes classes))) +
        ((marks.map (Mark.found classes)).map (·.shortcode.utf8ByteSize)).sum := by
  induction marks with
  | nil => simp [textContents, Text.byteLength]
  | cons mark marks ih =>
    simp only [List.flatMap_cons, textContents_append, Text.byteLength_append, ih, markText,
      markNodes, Element.toNode, element, Element.leaf, textContents, Node.textContent,
      List.nil_append, textContents_textNodes, List.map_cons, List.sum_cons, Mark.found,
      Text.utf8ByteSize_ofList]
    omega

/-- The text of a text is kept, except for its shortcodes. -/
private theorem byteLength_eq_of_replace? (classes : Classes) (text : String) :
    Text.byteLength text.toList =
      Text.byteLength (textContents ((replace? classes text).getD [.text text])) +
        ((foundIn classes text).map (·.shortcode.utf8ByteSize)).sum := by
  rw [replace?_eq, foundIn_eq]
  split
  · rename_i h
    simp [h, textContents, Node.textContent]
  · conv => lhs; rw [← text_cut text.toList, Cut.text, Text.byteLength_append]
    rw [Option.getD_some, nodes, textContents_append, textContents_textNodes,
      Text.byteLength_append, byteLength_flatMap_markText classes]
    omega

end Icon

/-! ### Trees -/

section

variable (skip : List String) (classes : Icon.Classes)

/-- The bytes of the shortcodes found in texts. -/
def shortcodeBytes (texts : List String) : Nat :=
  ((texts.flatMap (foundIn classes)).map (·.shortcode.utf8ByteSize)).sum

private theorem shortcodeBytes_append (first second : List String) :
    shortcodeBytes classes (first ++ second) =
      shortcodeBytes classes first + shortcodeBytes classes second := by
  simp [shortcodeBytes]

mutual

private theorem Node.byteLength_rewrite :
    ∀ node : Node, Text.byteLength node.textContent =
      Text.byteLength (textContents (node.rewrite skip (Icon.replace? classes))) +
        shortcodeBytes classes (node.offeredTexts skip)
  | .element tag attributes children => by
    have ih := byteLength_rewriteNodes children
    rw [Node.rewrite, Node.offeredTexts]
    split
    · simp [textContents, Node.textContent, shortcodeBytes]
    · simpa [textContents, Node.textContent] using ih
  | .text content => by
    have h := Icon.byteLength_eq_of_replace? classes content
    simpa [Node.textContent, Node.rewrite, Node.offeredTexts, shortcodeBytes] using h
  | .raw content => by
    simp [Node.textContent, Node.rewrite, Node.offeredTexts, textContents, shortcodeBytes]
  | .comment content => by
    simp [Node.textContent, Node.rewrite, Node.offeredTexts, textContents, shortcodeBytes]

/-- The text of nodes is kept, except for the shortcodes of the offered texts. -/
theorem byteLength_rewriteNodes :
    ∀ nodes : List Node, Text.byteLength (textContents nodes) =
      Text.byteLength (textContents (rewriteNodes skip (Icon.replace? classes) nodes)) +
        shortcodeBytes classes (offeredTexts skip nodes)
  | [] => by simp [rewriteNodes, offeredTexts, textContents, shortcodeBytes]
  | node :: rest => by
    have hnode := Node.byteLength_rewrite node
    have hrest := byteLength_rewriteNodes rest
    simp only [rewriteNodes, offeredTexts, textContents, textContents_append,
      Text.byteLength_append, shortcodeBytes_append]
    omega

end

end

/-- The edits that put icons in place of the shortcodes of a document. -/
def iconEdits (document : Document) (settings : Settings) : List Edit :=
  editsOf settings.render.skipElements (Icon.replace? settings.icons) document.root.children

theorem fst_withIcons (document : Document) (settings : Settings) :
    (document.withIcons settings).1 =
      ⟨{ document.root with children := afterOf (iconEdits document settings) }⟩ := by
  have hwith : document.withIcons settings = _ :=
    Icon.replaceIn_eq settings.icons settings.render.skipElements document
  rw [hwith, iconEdits, afterOf_editsOf]

/-- The elements that are inserted are the icons of what is found. -/
theorem filterMap_insertedOf_iconEdits (document : Document) (settings : Settings) :
    (insertedOf (iconEdits document settings)).filterMap Node.element? =
      (collect document settings).map fun found =>
        Icon.element settings.icons found.style found.icon := by
  rw [iconEdits, insertedOf_editsOf, List.filterMap_flatMap]
  simp only [Icon.filterMap_replace?]
  exact (List.map_flatMap ..).symm

/-- What is found in a document is what is replaced in it: the elements inserted are the icons of
the list, one each and in the same order, with the listed classes; the number of replaced texts is
the number of offered texts in which something is found; and the text of the document is as long as
the text that remains and the listed shortcodes together. -/
theorem collect_agrees_with_withIcons (document : Document) (settings : Settings) :
    let skip := settings.render.skipElements
    let found := collect document settings
    let edits := editsOf skip (Icon.replace? settings.icons) document.root.children
    beforeOf edits = document.root.children ∧
      (document.withIcons settings).1 =
        ⟨{ document.root with children := afterOf edits }⟩ ∧
      (insertedOf edits).filterMap Node.element? =
        found.map (fun icon => Icon.element settings.icons icon.style icon.icon) ∧
      ((insertedOf edits).filterMap Node.element?).map (·.attributes.get? "class") =
        found.map (fun icon => some (String.intercalate " " icon.classes)) ∧
      (document.withIcons settings).2 =
        (document.root.offeredTexts skip).countP
          (fun text => foundIn settings.icons text ≠ []) ∧
      document.textContent.utf8ByteSize =
        (document.withIcons settings).1.textContent.utf8ByteSize +
          (found.map (·.shortcode.utf8ByteSize)).sum := by
  intro skip found edits
  have hwith : document.withIcons settings = _ :=
    Icon.replaceIn_eq settings.icons skip document
  have hinserted : (insertedOf edits).filterMap Node.element? =
      found.map fun icon => Icon.element settings.icons icon.style icon.icon :=
    filterMap_insertedOf_iconEdits document settings
  refine ⟨beforeOf_editsOf _, fst_withIcons document settings, hinserted, ?_, ?_, ?_⟩
  · -- the class of an inserted element is the joined list of what is found
    rw [hinserted, List.map_map]
    refine List.map_congr_left fun icon hicon => ?_
    obtain ⟨text, -, htext⟩ := List.mem_flatMap.mp hicon
    rw [Icon.foundIn_eq] at htext
    obtain ⟨mark, -, rfl⟩ := List.mem_map.mp htext
    rfl
  · rw [hwith, answered]
    refine List.countP_congr fun text _ => ?_
    rw [decide_eq_true_iff, ne_eq, Icon.foundIn_eq_nil_iff, Option.isSome_iff_ne_none]
  · have h := byteLength_rewriteNodes skip settings.icons document.root.children
    rw [hwith]
    simp only [Document.textContent, Element.textContent, Text.utf8ByteSize_ofList]
    exact h

end IconMarkup
