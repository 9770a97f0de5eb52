import IconMarkup.Pipeline
import IconMarkup.Proofs.Html.RoundTrip
import IconMarkup.Proofs.Icon.Passes

/-!
# Icons in written documents

`ofHtml_process`: what a canonical document becomes when its shortcodes are replaced by icons is
read back from its markup, whatever the text around the shortcodes is and whatever the classes of
the icons are. The pieces of a text and the icons between them are canonical
(`canonicalNodes_nodes`), and so is the document that they are put into (`canonical_withIcons`).
-/

namespace IconMarkup

open Html Icon Config
open Icon.Cut

/-! ### Icons -/

namespace Icon

theorem attributes_element (classes : Classes) (style : Style) (icon : String) :
    (element classes style icon).attributes =
      ⟨[("class", String.intercalate " " (classes.of style icon)), ("aria-hidden", "true")]⟩ :=
  Attributes.ofList_eq_of_nodup (by simp)

/-- An icon can be written and read back, whatever its classes are. -/
theorem canonical_element (classes : Classes) (style : Style) (icon : String) :
    (element classes style icon).toNode.Canonical := by
  have hattributes : (element classes style icon).attributes.toList =
      [("class", String.intercalate " " (classes.of style icon)), ("aria-hidden", "true")] :=
    congrArg Attributes.toList (attributes_element classes style icon)
  have hstart : IsPlainStart "i" (element classes style icon).attributes := by
    refine ⟨by decide, by decide, by decide, ?_, ?_⟩
    · rw [hattributes]
      simp only [List.forall_mem_cons]
      decide
    · rw [hattributes]
      simp
  rw [Element.toNode, Node.Canonical]
  exact ⟨hstart, fun _ => rfl, List.isChain_nil, by simp [element, Element.leaf, CanonicalNodes]⟩

private theorem canonicalNodes_textNodes (cs : List Char) : CanonicalNodes (textNodes cs) := by
  rw [textNodes]
  split
  · trivial
  · rename_i h
    refine ⟨fun hempty => h ?_, trivial⟩
    rw [← String.toList_ofList (l := cs), hempty]
    rfl

/-- A piece of text may stand before anything that does not begin with text. -/
theorem textsApart_textNodes_append (cs : List Char) {rest : List Node} (h : TextsApart rest)
    (hhead : ∀ node ∈ rest.head?, node.isText = false) : TextsApart (textNodes cs ++ rest) := by
  rw [textNodes]
  split
  · exact h
  · rw [List.singleton_append]
    refine List.isChain_cons.mpr ⟨fun node hnode hboth => ?_, h⟩
    rw [hhead node hnode] at hboth
    cases hboth.2

private theorem canonicalNodes_flatMap_markNodes (classes : Classes) (marks : List Mark) :
    CanonicalNodes (marks.flatMap (markNodes classes)) := by
  refine canonicalNodes_iff.mpr fun node hnode => ?_
  obtain ⟨mark, -, hmark⟩ := List.mem_flatMap.mp hnode
  rcases List.mem_cons.mp hmark with rfl | hafter
  · exact canonical_element ..
  · exact canonicalNodes_iff.mp (canonicalNodes_textNodes _) node hafter

theorem textsApart_flatMap_markNodes (classes : Classes) (marks : List Mark) :
    TextsApart (marks.flatMap (markNodes classes)) ∧
      ∀ node ∈ (marks.flatMap (markNodes classes)).head?, node.isText = false := by
  induction marks with
  | nil => exact ⟨List.isChain_nil, by simp⟩
  | cons mark marks ih =>
    rw [List.flatMap_cons, markNodes, List.cons_append]
    -- every text comes right after an icon, and right before one or at the end
    refine ⟨List.isChain_cons.mpr ⟨fun node _ hboth => ?_, ?_⟩, fun node hnode => ?_⟩
    · cases hboth.1
    · exact textsApart_textNodes_append mark.after ih.1 ih.2
    · cases hnode
      rfl

/-- What takes the place of a text can be written and read back, whatever the text is. -/
private theorem canonicalNodes_replace? {classes : Classes} {text : String} {nodes : List Node}
    (h : replace? classes text = some nodes) : CanonicalNodes nodes ∧ TextsApart nodes := by
  rw [replace?_eq, Option.ite_none_left_eq_some, Option.some.injEq] at h
  rw [← h.2, Cut.nodes, canonicalNodes_append]
  obtain ⟨hapart, hhead⟩ := textsApart_flatMap_markNodes classes (cut text.toList).marks
  exact ⟨⟨canonicalNodes_textNodes _, canonicalNodes_flatMap_markNodes ..⟩,
    textsApart_textNodes_append _ hapart hhead⟩

end Icon

/-! ### Trees -/

section

variable (skip : List String) (classes : Classes)

/-- A pass puts no text where there was none. -/
private theorem head?_rewriteNodes {nodes : List Node}
    (h : ∀ node ∈ nodes.head?, node.isText = false) :
    ∀ node ∈ (rewriteNodes skip (replace? classes) nodes).head?, node.isText = false := by
  cases nodes with
  | nil => simp [rewriteNodes]
  | cons node rest =>
    have htext := h node rfl
    cases node with
    | element tag attributes children =>
      rw [rewriteNodes, Node.rewrite]
      split <;> simp [Node.isText]
    | text content => cases htext
    | raw content => cases htext
    | comment content => simp [rewriteNodes, Node.rewrite, Node.isText]

private theorem getLast?_rewrite {node : Node} (h : node.isText = false) :
    ∀ last ∈ (node.rewrite skip (replace? classes)).getLast?, last.isText = false := by
  cases node with
  | element tag attributes children =>
    rw [Node.rewrite]
    split <;> simp [Node.isText]
  | text content => cases h
  | raw content => cases h
  | comment content => simp [Node.rewrite, Node.isText]

mutual

private theorem Node.canonical_rewrite :
    ∀ node : Node, node.Canonical →
      CanonicalNodes (node.rewrite skip (replace? classes)) ∧
        TextsApart (node.rewrite skip (replace? classes))
  | .element tag attributes children, h => by
    have hchildren := h
    rw [Node.Canonical] at hchildren
    obtain ⟨hstart, hvoid, hapart, hchildren⟩ := hchildren
    obtain ⟨hchildren', hapart'⟩ := canonicalNodes_rewriteNodes children hchildren hapart
    rw [Node.rewrite]
    split
    · exact ⟨⟨h, trivial⟩, List.isChain_singleton _⟩
    · refine ⟨⟨?_, trivial⟩, List.isChain_singleton _⟩
      rw [Node.Canonical]
      -- an element without children is given none
      exact ⟨hstart, fun hv => by rw [hvoid hv, rewriteNodes], hapart', hchildren'⟩
  | .text content, h => by
    rw [Node.rewrite]
    rcases hreplace : replace? classes content with _ | nodes
    · exact ⟨⟨h, trivial⟩, List.isChain_singleton _⟩
    · exact canonicalNodes_replace? hreplace
  | .raw content, h => by
    rw [Node.Canonical] at h
    exact h.elim
  | .comment content, h => by
    rw [Node.rewrite]
    exact ⟨⟨h, trivial⟩, List.isChain_singleton _⟩

/-- Canonical nodes stay canonical when icons take the place of shortcodes. -/
theorem canonicalNodes_rewriteNodes :
    ∀ nodes : List Node, CanonicalNodes nodes → TextsApart nodes →
      CanonicalNodes (rewriteNodes skip (replace? classes) nodes) ∧
        TextsApart (rewriteNodes skip (replace? classes) nodes)
  | [], _, _ => by
    rw [rewriteNodes]
    exact ⟨trivial, List.isChain_nil⟩
  | node :: rest, h, hapart => by
    rw [CanonicalNodes] at h
    obtain ⟨hnext, hapart⟩ := List.isChain_cons.mp hapart
    obtain ⟨hnode, happart⟩ := Node.canonical_rewrite node h.1
    obtain ⟨hrest, hapart'⟩ := canonicalNodes_rewriteNodes rest h.2 hapart
    rw [rewriteNodes]
    refine ⟨canonicalNodes_append.mpr ⟨hnode, hrest⟩,
      List.isChain_append.mpr ⟨happart, hapart', fun last hlast next hnext' hboth => ?_⟩⟩
    -- where the pass changes a text, what comes next was no text and still is none
    rcases htext : node.isText with _ | _
    · rw [getLast?_rewrite skip classes htext last hlast] at hboth
      cases hboth.1
    · have hhead : ∀ next ∈ rest.head?, next.isText = false := by
        intro next hmem
        rw [Bool.eq_false_iff]
        exact fun hnext' => hnext next hmem ⟨htext, hnext'⟩
      rw [head?_rewriteNodes skip classes hhead next hnext'] at hboth
      cases hboth.2

end

end

/-! ### Documents -/

/-- A canonical document stays canonical when icons take the place of its shortcodes. -/
theorem canonical_withIcons {document : Document} (h : document.Canonical) (settings : Settings) :
    (document.withIcons settings).1.Canonical := by
  obtain ⟨hnodes, hapart⟩ := canonicalNodes_rewriteNodes settings.render.skipElements
    settings.icons document.root.children h.nodes h.apart
  rw [Document.withIcons, replaceIn_eq]
  exact ⟨h.fragment, h.bare, hapart, hnodes⟩

/-- A canonical document is read back from its markup, up to the order of attributes within an
element. So is the document that it becomes when icons take the place of its shortcodes: whatever
its text and whatever the classes of the icons are, the elements that are read are those that were
written. -/
theorem ofHtml_process {document : Document} (h : document.Canonical) :
    document.Agrees (Document.ofHtml document.render) ∧
      ∀ settings : Settings, (document.withIcons settings).1.Canonical ∧
        (document.withIcons settings).1.Agrees (Document.ofHtml (process document settings)) := by
  refine ⟨agrees_ofHtml_render h, fun settings => ?_⟩
  have hicons := canonical_withIcons h settings
  exact ⟨hicons, agrees_ofHtml_render hicons⟩

/-- Text and attribute values that look like markup, and an icon whose class does. -/
theorem ofHtml_process_lookalikes :
    let document := Document.ofNodes [.comment " a > b ",
      .element "p" ⟨[("class", "x"), ("title", "\"&quot;>")]⟩
        [.text "</p>&lt;:fa-solid:x:", .element "br" .empty []]]
    let settings : Settings := { icons := ⟨"\"><b>", ["&"]⟩ }
    document.Canonical ∧ document.Agrees (Document.ofHtml document.render) ∧
      (document.withIcons settings).1.Agrees (Document.ofHtml (process document settings)) := by
  intro document settings
  have hbr : IsPlainStart "br" .empty := ⟨by decide, by decide, by decide, by simp, by simp⟩
  have hp : IsPlainStart "p" ⟨[("class", "x"), ("title", "\"&quot;>")]⟩ := by
    refine ⟨by decide, by decide, by decide, ?_, ?_⟩ <;> simp [Attributes.toList]
    decide
  have hcomment : IsPlainComment " a > b ".toList := by
    rw [show " a > b ".toList = [' ', 'a', ' ', '>', ' ', 'b', ' '] from rfl]
    exact ⟨by simp, by simp, by simp, by decide⟩
  have h : document.Canonical := by
    refine ⟨rfl, rfl, by simp [TextsApart, document, Document.ofNodes, Node.isText], ?_⟩
    simp only [document, Document.ofNodes, CanonicalNodes, Node.Canonical]
    refine ⟨hcomment, ⟨hp, by simp [isVoidTag], by simp [TextsApart, Node.isText], ?_⟩, trivial⟩
    exact ⟨by simp, ⟨hbr, by simp, List.isChain_nil, trivial⟩, trivial⟩
  exact ⟨h, (ofHtml_process h).1, ((ofHtml_process h).2 settings).2⟩

end IconMarkup
