import IconMarkup.Proofs.Html.Rereadable
import IconMarkup.Proofs.Icon.Markup
import IconMarkup.Proofs.Icon.Processing

/-!
# Processing again

The outcome of processing an HTML text is an HTML text, which can be processed again
(`process_process`). It is read as what the markup of the page with icons tells, and if no shortcode
has come together from neighbouring texts, the second time changes nothing but the order of
attributes in the icons, and the third time nothing. Otherwise this takes one time more, since texts
that have been joined stay so (`writtenFrom_rewriteNodes_writtenFrom`). All this is about texts
whose start tags have few attributes, since only their order is settled, and the outcomes are again
such texts.
-/

namespace IconMarkup

open Html Icon Config
open Icon.Cut

/-! ### Pages with icons are legible -/

namespace Html

/-- A start tag with plain names is legible. -/
private theorem IsPlainStart.isLegibleStart {tag : String} {attributes : Attributes}
    (h : IsPlainStart tag attributes) : IsLegibleStart tag attributes where
  name := isName_of_isPlainName h.plainTag
  lower := toLower_of_isPlainName h.plainTag
  names entry hentry := isName_of_isPlainName (h.plainNames entry hentry)
  nameless htag := by
    have hplain := h.plainTag
    rw [htag] at hplain
    exact absurd hplain (by decide)
  distinct := h.distinctNames

end Html

/-- An icon is legible and not open. -/
private theorem legible_icon (classes : Classes) (style : Style) (icon : String) :
    (Icon.element classes style icon).toNode.Legible ∧
      (Icon.element classes style icon).toNode.isOpen = false := by
  have hcanonical := canonical_element classes style icon
  rw [Element.toNode, Node.Canonical] at hcanonical
  rw [Element.toNode, Node.Legible]
  refine ⟨⟨hcanonical.1.isLegibleStart, ?_, fun _ => ⟨fun _ => rfl, ?_, ?_, fun _ => trivial⟩⟩, rfl⟩
  · simp [HasFewOthers, attributes_element, Attributes.toList]
  · simp [Icon.element, Element.leaf, isOpenIn]
  · exact fun hraw => absurd hraw (by decide : ¬ isRawTextTag "i" = true)

/-- What takes the place of a text is legible and not open. -/
private theorem legibleNodes_replace? {classes : Classes} {text : String} {nodes : List Node}
    (h : replace? classes text = some nodes) : LegibleNodes nodes ∧ isOpenIn nodes = false := by
  rw [replace?_eq, Option.ite_none_left_eq_some, Option.some.injEq] at h
  have hmarks : ∀ marks : List Mark, LegibleNodes (marks.flatMap (markNodes classes)) ∧
      isOpenIn (marks.flatMap (markNodes classes)) = false := by
    intro marks
    induction marks with
    | nil => exact ⟨trivial, rfl⟩
    | cons mark marks ih =>
      obtain ⟨hicon, hclosed⟩ := legible_icon classes mark.style (String.ofList mark.icon)
      rw [List.flatMap_cons, markNodes, List.cons_append, isOpenIn, isOpenIn_append,
        isOpenIn_textNodes, hclosed, ih.2]
      refine ⟨⟨hicon, fun hopen => ?_, legibleNodes_append (legibleNodes_textNodes _) ih.1 ?_⟩, rfl⟩
      · rw [hclosed] at hopen
        cases hopen
      · simp [isOpenIn_textNodes]
  obtain ⟨hlegible, hclosed⟩ := hmarks (cut text.toList).marks
  rw [← h.2, Cut.nodes, isOpenIn_append, isOpenIn_textNodes, hclosed]
  exact ⟨legibleNodes_append (legibleNodes_textNodes _) hlegible
    (by simp [isOpenIn_textNodes]), rfl⟩

section

variable {skip : List String} {classes : Classes}

mutual

private theorem Node.isOpenIn_rewrite : ∀ node : Node,
    isOpenIn (node.rewrite skip (replace? classes)) = node.isOpen
  | .element tag attributes children => by
    rw [Node.rewrite]
    split
    · rw [isOpenIn, isOpenIn, Bool.or_false]
    · rw [isOpenIn, isOpenIn, Bool.or_false, Node.isOpen, Node.isOpen,
        isOpenIn_rewriteNodes children]
  | .text content => by
    rw [Node.rewrite]
    rcases h : replace? classes content with _ | nodes
    · rfl
    · exact (legibleNodes_replace? h).2
  | .raw content => by
    rw [Node.rewrite]
    rfl
  | .comment content => by rw [Node.rewrite, isOpenIn, isOpenIn, Bool.or_false]

/-- Putting in icons closes and opens nothing. -/
private theorem isOpenIn_rewriteNodes : ∀ nodes : List Node,
    isOpenIn (rewriteNodes skip (replace? classes) nodes) = isOpenIn nodes
  | [] => by rw [rewriteNodes]
  | node :: rest => by
    rw [rewriteNodes, isOpenIn_append, Node.isOpenIn_rewrite node, isOpenIn_rewriteNodes rest,
      isOpenIn]

end

mutual

private theorem Node.legible_rewrite : ∀ node : Node, node.Legible →
    LegibleNodes (node.rewrite skip (replace? classes))
  | .element tag attributes children, h => by
    have hlegible := h
    rw [Node.Legible] at hlegible
    obtain ⟨hstart, hothers, hcontent⟩ := hlegible
    rw [Node.rewrite]
    split
    · exact ⟨h, fun _ => rfl, trivial⟩
    · refine ⟨?_, fun _ => rfl, trivial⟩
      rw [Node.Legible]
      refine ⟨hstart, hothers, fun hvoid => ?_⟩
      obtain ⟨hempty, hhyphens, hraw, hchildren⟩ := hcontent hvoid
      rw [isOpenIn_rewriteNodes children]
      refine ⟨fun hopens => ?_, hhyphens, fun htag => ?_, fun htag => ?_⟩
      · rw [hempty hopens, rewriteNodes]
      · obtain ⟨content, rfl, hbody⟩ := hraw htag
        exact ⟨content, rewriteNodes_rawText content, hbody⟩
      · exact legibleNodes_rewriteNodes children (hchildren htag)
  | .text content, h => by
    rw [Node.rewrite]
    rcases hreplace : replace? classes content with _ | nodes
    · exact ⟨h, fun _ => rfl, trivial⟩
    · exact (legibleNodes_replace? hreplace).1
  | .raw content, h => by
    rw [Node.Legible] at h
    exact h.elim
  | .comment content, h => by
    rw [Node.rewrite]
    exact ⟨h, fun _ => rfl, trivial⟩

/-- Legible nodes stay legible when icons take the place of shortcodes. -/
theorem legibleNodes_rewriteNodes : ∀ nodes : List Node, LegibleNodes nodes →
    LegibleNodes (rewriteNodes skip (replace? classes) nodes)
  | [], _ => by
    rw [rewriteNodes]
    trivial
  | node :: rest, h => by
    rw [LegibleNodes] at h
    obtain ⟨hnode, hopen, hrest⟩ := h
    rw [rewriteNodes]
    refine legibleNodes_append (Node.legible_rewrite node hnode)
      (legibleNodes_rewriteNodes rest hrest) fun hrewritten => ?_
    rw [hopen (by rwa [Node.isOpenIn_rewrite node] at hrewritten), rewriteNodes]

end

end

/-! ### Texts that stay apart -/

section

variable (skip : List String) (classes : Classes) {rest : List Node}

/-- A text ends where no other one begins. -/
private theorem writtenFrom_of_head? (h : ∀ content, rest.head? ≠ some (.text content))
    (before : List Char) : writtenFrom before rest = textNodes before ++ writtenFrom [] rest := by
  cases rest with
  | nil => simp [writtenFrom, textNodes]
  | cons node rest =>
    have hnode : ∀ content, node ≠ .text content := fun content heq => h content (by rw [heq]; rfl)
    rw [writtenFrom_cons hnode, writtenFrom_cons hnode]
    rfl

/-- Icons with the texts after them keep texts apart, and begin with no text. -/
private theorem writtenFrom_flatMap_markNodes_append
    (h : ∀ content, rest.head? ≠ some (.text content)) (marks : List Mark) :
    writtenFrom [] (marks.flatMap (markNodes classes) ++ rest) =
        marks.flatMap (markNodes classes) ++ writtenFrom [] rest ∧
      ∀ content, (marks.flatMap (markNodes classes) ++ rest).head? ≠ some (.text content) := by
  induction marks with
  | nil => exact ⟨rfl, h⟩
  | cons mark marks ih =>
    have hicon : (element classes mark.style (String.ofList mark.icon)).toNode.written =
        (element classes mark.style (String.ofList mark.icon)).toNode := by
      simp [element, Element.leaf, Element.toNode, Node.written, writtenFrom, textNodes]
    have hnode : ∀ content,
        (element classes mark.style (String.ofList mark.icon)).toNode ≠ .text content := by
      simp [Element.toNode]
    rw [List.flatMap_cons, markNodes, List.cons_append, List.cons_append, List.append_assoc,
      writtenFrom_cons hnode, hicon, writtenFrom_textNodes_append, List.nil_append,
      writtenFrom_of_head? ih.2, ih.1]
    exact ⟨by simp [textNodes], fun content => by simp [Element.toNode]⟩

/-- Icons and the texts between them are told as they are, and so is what follows unless it is a
text. -/
private theorem writtenFrom_rewriteNodes_textNodes_append
    (h : ∀ content, rest.head? ≠ some (.text content)) (cs : List Char) :
    writtenFrom [] (rewriteNodes skip (replace? classes) (textNodes cs) ++ rest) =
      rewriteNodes skip (replace? classes) (textNodes cs) ++ writtenFrom [] rest := by
  have htext : ∀ (lead : List Char) {others : List Node},
      (∀ content, others.head? ≠ some (.text content)) →
        writtenFrom [] (textNodes lead ++ others) = textNodes lead ++ writtenFrom [] others := by
    intro lead others hothers
    rw [writtenFrom_textNodes_append, List.nil_append, writtenFrom_of_head? hothers]
  by_cases hnil : cs = []
  · subst hnil
    rfl
  · have hone : textNodes cs = [.text (String.ofList cs)] := by
      rw [textNodes, if_neg (by simpa using hnil)]
    rcases hreplace : replace? classes (String.ofList cs) with _ | nodes
    · have hsame : rewriteNodes skip (replace? classes) (textNodes cs) = textNodes cs := by
        rw [hone, rewriteNodes, rewriteNodes, Node.rewrite, hreplace]
        rfl
      rw [hsame, htext cs h]
    · have hnodes : rewriteNodes skip (replace? classes) (textNodes cs) = nodes := by
        rw [hone, rewriteNodes, rewriteNodes, Node.rewrite, hreplace, List.append_nil]
        rfl
      rw [replace?_eq, Option.ite_none_left_eq_some, Option.some.injEq] at hreplace
      obtain ⟨hmarks, hhead⟩ := writtenFrom_flatMap_markNodes_append classes h
        (cut (String.ofList cs).toList).marks
      rw [hnodes, ← hreplace.2, Cut.nodes, List.append_assoc, htext _ hhead, hmarks,
        List.append_assoc]

mutual

private theorem Node.exists_rewrite_written : ∀ node : Node, (∀ content, node ≠ .text content) →
    ∃ node', node.written.rewrite skip (replace? classes) = [node'] ∧
      (∀ content, node' ≠ .text content) ∧ node'.written = node'
  | .element tag attributes children, _ => by
    have hagain := Node.written_written (.element tag attributes children)
    rw [Node.written] at hagain ⊢
    rw [Node.rewrite]
    split
    · exact ⟨_, rfl, by simp, hagain⟩
    · refine ⟨_, rfl, by simp, ?_⟩
      rw [Node.written]
      cases isVoidTag tag
      · rw [if_neg (by simp), if_neg (by simp),
          writtenFrom_rewriteNodes_writtenFrom children []]
      · rfl
  | .text content, h => absurd rfl (h content)
  | .raw content, h => ⟨.raw content, by simp [Node.written, Node.rewrite], h, by rw [Node.written]⟩
  | .comment content, h =>
    ⟨.comment content, by simp [Node.written, Node.rewrite], h, by rw [Node.written]⟩

/-- Where no texts are neighbours, none are once icons have taken the place of shortcodes. -/
theorem writtenFrom_rewriteNodes_writtenFrom : ∀ (nodes : List Node) (before : List Char),
    writtenFrom [] (rewriteNodes skip (replace? classes) (writtenFrom before nodes)) =
      rewriteNodes skip (replace? classes) (writtenFrom before nodes)
  | [], before => by
    have hnil : ∀ content, ([] : List Node).head? ≠ some (.text content) := by simp
    have hlast := writtenFrom_rewriteNodes_textNodes_append skip classes hnil before
    simpa [writtenFrom, textNodes] using hlast
  | node :: rest, before => by
    by_cases htext : ∃ content, node = .text content
    · obtain ⟨content, rfl⟩ := htext
      rw [writtenFrom]
      exact writtenFrom_rewriteNodes_writtenFrom rest _
    · obtain ⟨node', hrewrite, hnode', hwritten⟩ :=
        Node.exists_rewrite_written node (not_exists.mp htext)
      have hhead : ∀ content, (node' :: rewriteNodes skip (replace? classes)
          (writtenFrom [] rest)).head? ≠ some (.text content) := fun content heq =>
        hnode' content (Option.some_inj.mp heq)
      rw [writtenFrom_cons (not_exists.mp htext), rewriteNodes_append, rewriteNodes, hrewrite,
        List.singleton_append, writtenFrom_rewriteNodes_textNodes_append skip classes hhead,
        writtenFrom_cons hnode', hwritten, writtenFrom_rewriteNodes_writtenFrom rest []]
      rfl

end

end

/-! ### What is found again -/

mutual

private theorem Node.offeredTexts_arranged (skip : List String) :
    ∀ node : Node, node.arranged.offeredTexts skip = node.offeredTexts skip
  | .element tag attributes children => by
    rw [Node.arranged, Node.offeredTexts, Node.offeredTexts,
      offeredTexts_arrangedNodes skip children]
  | .text content => by rw [Node.arranged]
  | .raw content => by rw [Node.arranged]
  | .comment content => by rw [Node.arranged]

/-- Running text does not depend on the order of attributes. -/
theorem offeredTexts_arrangedNodes (skip : List String) :
    ∀ nodes : List Node, offeredTexts skip (arrangedNodes nodes) = offeredTexts skip nodes
  | [] => by rw [arrangedNodes]
  | node :: rest => by
    rw [arrangedNodes, offeredTexts, offeredTexts, Node.offeredTexts_arranged skip node,
      offeredTexts_arrangedNodes skip rest]

end

/-- What the markup of a document tells of it. -/
def Document.written (document : Document) : Document :=
  .ofNodes (writtenFrom [] document.root.children)

private theorem writtenFrom_rawText_append (content : List Char) (nodes : List Node) :
    writtenFrom [] (rawText content ++ nodes) = rawText content ++ writtenFrom [] nodes := by
  rw [rawText]
  split <;> rfl

private theorem collect_ofNodes_arrangedNodes (nodes : List Node) (settings : Settings) :
    collect (.ofNodes (arrangedNodes nodes)) settings = collect (.ofNodes nodes) settings := by
  simp only [collect, Document.ofNodes, Element.offeredTexts, offeredTexts_arrangedNodes]

/-! ### Legible pages -/

section Page

variable {cs doctype rest : List Char} {nodes : List Node}
  (hdoctype : splitDoctype cs = (doctype, rest)) (h : LegibleNodes nodes)

private theorem written_ofNodes (doctype : List Char) (nodes : List Node) :
    (Document.ofNodes (rawText doctype ++ nodes)).written =
      .ofNodes (rawText doctype ++ writtenFrom [] nodes) :=
  congrArg Document.ofNodes (writtenFrom_rawText_append doctype nodes)

/-- A page is written as what its markup tells of it. -/
private theorem render_written (doctype : List Char) (nodes : List Node) :
    (Document.ofNodes (rawText doctype ++ nodes)).written.render =
      (Document.ofNodes (rawText doctype ++ nodes)).render := by
  rw [written_ofNodes, ← String.toList_inj, toList_render_ofNodes, toList_render_ofNodes,
    markupOf_append, markupOf_append, markupOf_writtenFrom]
  rfl

/-- A document type declaration is written in front of the page as it is. -/
private theorem render_rawText_append (doctype : List Char) (nodes : List Node) :
    (Document.ofNodes (rawText doctype ++ nodes)).render =
      String.ofList (doctype ++ markupOf nodes) := by
  rw [← String.toList_inj, toList_render_ofNodes, markupOf_append, markupOf_rawText,
    String.toList_ofList]

/-- Icons are put into a page after its document type declaration. -/
private theorem withIcons_rawText_append (doctype : List Char) (nodes : List Node)
    (settings : Settings) :
    ((Document.ofNodes (rawText doctype ++ nodes)).withIcons settings).1 =
      .ofNodes (rawText doctype ++
        rewriteNodes settings.render.skipElements (replace? settings.icons) nodes) := by
  rw [withIcons_ofNodes, rewriteNodes_append, rewriteNodes_rawText]

/-- Where no texts are neighbours, nothing is found once icons have taken the place of shortcodes.
-/
private theorem collect_written_withIcons (doctype : List Char) {nodes : List Node}
    (hjoined : writtenFrom [] nodes = nodes) (settings : Settings) :
    collect ((Document.ofNodes (rawText doctype ++ nodes)).withIcons settings).1.written settings =
      [] := by
  have hicons := writtenFrom_rewriteNodes_writtenFrom settings.render.skipElements settings.icons
    nodes []
  rw [hjoined] at hicons
  have hsame : ((Document.ofNodes (rawText doctype ++ nodes)).withIcons settings).1.written =
      ((Document.ofNodes (rawText doctype ++ nodes)).withIcons settings).1 := by
    rw [withIcons_rawText_append, written_ofNodes, hicons]
  rw [hsame, collect_withIcons]

include hdoctype h

/-- The start tags in the markup of a legible page have few attributes. -/
private theorem hasFewAttributes_render :
    HasFewAttributes (Document.ofNodes (rawText doctype ++ nodes)).render := by
  rw [render_rawText_append]
  exact hasFewAttributes_of_legible hdoctype h

/-- The start tags in the outcome of processing a legible page have few attributes. -/
theorem hasFewAttributes_process (settings : Settings) :
    HasFewAttributes (process (.ofNodes (rawText doctype ++ nodes)) settings) := by
  rw [process, withIcons_rawText_append]
  exact hasFewAttributes_render hdoctype (legibleNodes_rewriteNodes nodes h)

/-- The markup of a legible page after a document type declaration is read as what it tells. -/
private theorem ofHtml_render_eq_reread :
    Document.ofHtml (Document.ofNodes (rawText doctype ++ nodes)).render =
      .ofNodes (rawText doctype ++ rereadNodes nodes) := by
  rw [render_rawText_append, ofHtml_of_legible hdoctype h]

/-- Up to the order of attributes, a legible page is read as what its markup tells. -/
theorem ofHtml_render_of_legible :
    Document.ofHtml (Document.ofNodes (rawText doctype ++ nodes)).render =
      .ofNodes (arrangedNodes (rawText doctype ++ writtenFrom [] nodes)) := by
  rw [ofHtml_render_eq_reread hdoctype h, arrangedNodes_append, arrangedNodes_rawText, rereadNodes]

/-- What is found in a written page is found in what its markup tells. -/
theorem collect_ofHtml_render (settings : Settings) :
    collect (Document.ofHtml (Document.ofNodes (rawText doctype ++ nodes)).render) settings =
      collect (Document.ofNodes (rawText doctype ++ nodes)).written settings := by
  rw [ofHtml_render_of_legible hdoctype h, collect_ofNodes_arrangedNodes, written_ofNodes]

/-- A document that is read from the markup of a legible page is read again from its own markup. -/
theorem ofHtml_render_ofHtml_render :
    Document.ofHtml
        (Document.ofHtml (Document.ofNodes (rawText doctype ++ nodes)).render).render =
      Document.ofHtml (Document.ofNodes (rawText doctype ++ nodes)).render := by
  rw [ofHtml_render_eq_reread hdoctype h,
    ofHtml_render_eq_reread hdoctype (legibleNodes_rereadNodes h), rereadNodes_rereadNodes]

/-- A page in whose markup nothing is found is written as it is read, and from then on nothing
changes. -/
theorem process_ofHtml_render {settings : Settings}
    (hnone : collect (Document.ofNodes (rawText doctype ++ nodes)).written settings = []) :
    let text := (Document.ofNodes (rawText doctype ++ nodes)).render
    let again := process (.ofHtml text) settings
    again = (Document.ofHtml text).render ∧ process (.ofHtml again) settings = again := by
  intro text again
  have hagain : again = (Document.ofHtml text).render :=
    process_of_collect_eq_nil (ofHtml_render_eq_reread hdoctype h)
      ((collect_ofHtml_render hdoctype h settings).trans hnone)
  have hread : Document.ofHtml again = Document.ofHtml text := by
    rw [hagain]
    exact ofHtml_render_ofHtml_render hdoctype h
  exact ⟨hagain, by rw [hread]⟩

/-- Processing a written page leaves no shortcode, since the texts that were neighbours have been
joined before. So the next outcome is written as it is read, and is the last one. -/
theorem process_process_render (settings : Settings) :
    let text := (Document.ofNodes (rawText doctype ++ nodes)).render
    let once := process (.ofHtml text) settings
    let twice := process (.ofHtml once) settings
    (HasFewAttributes text ∧ HasFewAttributes once ∧ HasFewAttributes twice) ∧
      collect (.ofHtml once) settings = [] ∧ twice = (Document.ofHtml once).render ∧
      process (.ofHtml twice) settings = twice := by
  intro text once twice
  let icons := rewriteNodes settings.render.skipElements (replace? settings.icons)
    (rereadNodes nodes)
  have hicons : LegibleNodes icons := legibleNodes_rewriteNodes _ (legibleNodes_rereadNodes h)
  have hpage : ((Document.ofHtml text).withIcons settings).1 =
      .ofNodes (rawText doctype ++ icons) := by
    rw [ofHtml_render_eq_reread hdoctype h, withIcons_rawText_append]
  have honce : once = (Document.ofNodes (rawText doctype ++ icons)).render := by
    rw [← hpage]
    rfl
  have hnone : collect (Document.ofNodes (rawText doctype ++ icons)).written settings = [] := by
    rw [← hpage, ofHtml_render_eq_reread hdoctype h]
    exact collect_written_withIcons doctype (writtenFrom_rereadNodes nodes) settings
  obtain ⟨htwice, hthrice⟩ := process_ofHtml_render hdoctype hicons hnone
  rw [← honce] at htwice hthrice
  have htwiceFew : HasFewAttributes twice := by
    simp only [twice]
    rw [honce, ofHtml_render_eq_reread hdoctype hicons]
    exact hasFewAttributes_process hdoctype (legibleNodes_rereadNodes hicons) settings
  refine ⟨⟨hasFewAttributes_render hdoctype h, ?_, htwiceFew⟩, ?_, htwice, hthrice⟩
  · rw [honce]
    exact hasFewAttributes_render hdoctype hicons
  · rw [honce, collect_ofHtml_render hdoctype hicons, hnone]

end Page

/-! ### Processing twice -/

/-- Nodes that are read are written again as they were, once neighbouring texts are joined. -/
private theorem render_ofHtml_render_toNodes {cs doctype rest : List Char} {nodes : List SourceNode}
    (hdoctype : splitDoctype cs = (doctype, rest)) (h : LegibleNodes (toNodes nodes))
    (hread : ThroughoutAll SourceNode.IsRead nodes) :
    (Document.ofHtml (Document.ofNodes (rawText doctype ++ toNodes nodes)).render).render =
      (Document.ofNodes (rawText doctype ++ toNodes nodes)).render := by
  have harranged : rereadNodes (toNodes nodes) = writtenFrom [] (toNodes nodes) := by
    rw [rereadNodes, arrangedNodes_writtenFrom, arrangedNodes_toNodes nodes hread]
  rw [ofHtml_render_eq_reread hdoctype h, harranged, ← written_ofNodes, render_written]

/-- The page of a text with few attributes that is read again as it is written is legible. -/
private theorem exists_legible_page {text : String} (hfew : HasFewAttributes text)
    (h : rereadableAmong (SourceNode.ofText (splitDoctype text.toList).2) = true) :
    ∃ doctype body, splitDoctype text.toList = (doctype, body) ∧
      LegibleNodes (toNodes (SourceNode.ofText body)) ∧
      Document.ofHtml text = .ofNodes (rawText doctype ++ toNodes (SourceNode.ofText body)) := by
  obtain ⟨doctype, body, hsplit⟩ : ∃ doctype body, splitDoctype text.toList = (doctype, body) :=
    ⟨_, _, rfl⟩
  rw [HasFewAttributes, hsplit, ← throughoutAll_ofText_iff] at hfew
  rw [hsplit] at h
  refine ⟨doctype, body, hsplit, ?_, by rw [Document.ofHtml, hsplit]⟩
  exact legibleNodes_toNodes _ (isRead_ofText body) hfew (openLastAmong_ofText body) h

/-- Let the start tags of an HTML text have few attributes, and let the text be read again as it is
written. Then the outcome of processing it has few attributes too, and is read as what the markup of
the page with icons tells, up to the order of attributes. The shortcodes found in it are those that
have come together from neighbouring texts, and there are none if the text had no neighbours to
begin with. If there are none, processing it again writes the document that was read, and from then
on changes nothing; if there was no shortcode at all, the outcome already is the same the second
time. In any case nothing is found from the second time on, and the third outcome is the last. -/
theorem process_process {text : String} (settings : Settings) (hfew : HasFewAttributes text)
    (h : rereadableAmong (SourceNode.ofText (splitDoctype text.toList).2) = true) :
    let page := ((Document.ofHtml text).withIcons settings).1
    let once := process (.ofHtml text) settings
    let twice := process (.ofHtml once) settings
    let thrice := process (.ofHtml twice) settings
    (HasFewAttributes once ∧ HasFewAttributes twice ∧ HasFewAttributes thrice) ∧
      once = page.written.render ∧ page.written.Agrees (Document.ofHtml once) ∧
      collect (Document.ofHtml once) settings = collect page.written settings ∧
      ((Document.ofHtml text).written = Document.ofHtml text →
        collect page.written settings = []) ∧
      (collect page.written settings = [] →
        twice = (Document.ofHtml once).render ∧ thrice = twice ∧
          (collect (.ofHtml text) settings = [] → twice = once)) ∧
      collect (Document.ofHtml twice) settings = [] ∧ thrice = (Document.ofHtml twice).render ∧
      process (.ofHtml thrice) settings = thrice := by
  intro page once twice thrice
  obtain ⟨doctype, body, hsplit, hnodes, hdocument⟩ := exists_legible_page hfew h
  let nodes := toNodes (SourceNode.ofText body)
  let icons := rewriteNodes settings.render.skipElements (replace? settings.icons) nodes
  have hicons : LegibleNodes icons := legibleNodes_rewriteNodes _ hnodes
  have hpage : page = .ofNodes (rawText doctype ++ icons) := by
    simp only [page]
    rw [hdocument, withIcons_rawText_append]
  have honce : once = (Document.ofNodes (rawText doctype ++ icons)).render := by
    rw [← hpage]
    rfl
  obtain ⟨hfewEach, hlast⟩ := process_process_render hsplit hicons settings
  rw [← honce] at hfewEach hlast
  refine ⟨hfewEach, ?_, ?_, ?_, fun hjoined => ?_, fun hnone => ?_, hlast⟩
  · rw [honce, hpage, render_written]
  · rw [honce, hpage, ofHtml_render_of_legible hsplit hicons, written_ofNodes]
    exact .element fragmentTag (.refl _) (nodesAgree_arrangedNodes _)
  · rw [honce, hpage, collect_ofHtml_render hsplit hicons]
  · rw [hdocument, written_ofNodes] at hjoined
    have hchildren := congrArg (fun document => document.root.children) hjoined
    simp only [page]
    rw [hdocument]
    exact collect_written_withIcons doctype (List.append_cancel_left hchildren) settings
  · rw [hpage] at hnone
    obtain ⟨htwice, hthrice⟩ := process_ofHtml_render hsplit hicons hnone
    rw [← honce] at htwice hthrice
    refine ⟨htwice, hthrice, fun hplain => htwice.trans ?_⟩
    -- without icons all attributes are arranged as they were read
    have hsame : icons = nodes := by
      rw [hdocument] at hplain
      have hall := rewriteNodes_of_collect_eq_nil hplain
      rw [rewriteNodes_append, rewriteNodes_rawText] at hall
      exact List.append_cancel_left hall
    rw [honce, hsame]
    exact render_ofHtml_render_toNodes hsplit hnodes (isRead_ofText body)

/-- A paragraph with an icon, a reference and a comment is the same from the second time on. -/
theorem process_process_paragraph :
    let text := "<p id=a title=b lang>:fa-solid:x: &lt; <!-- b --><br></p>"
    let once := process (.ofHtml text) {}
    let twice := process (.ofHtml once) {}
    HasFewAttributes text ∧
      rereadableAmong (SourceNode.ofText (splitDoctype text.toList).2) = true ∧
      collect ((Document.ofHtml text).withIcons {}).1.written {} = [] ∧
      collect (Document.ofHtml once) {} = [] ∧ process (.ofHtml twice) {} = twice := by
  intro text once twice
  have hfew : HasFewAttributes text := by
    decide +kernel
  have hread : rereadableAmong (SourceNode.ofText (splitDoctype text.toList).2) = true := by
    decide +kernel
  have hnone : collect ((Document.ofHtml text).withIcons {}).1.written {} = [] := by
    decide +kernel
  obtain ⟨-, -, -, hcollect, -, hagain, -⟩ := process_process {} hfew hread
  exact ⟨hfew, hread, hnone, hcollect.trans hnone, (hagain hnone).2.1⟩

/-- Processing an icon again moves its `class` attribute to the end, and finds a shortcode that has
come together from neighbouring texts. The outcome is another one the second time also where a
comment lacks one of its delimiters, or is never closed in an element with two hyphens in its name,
where an element with content has a name that opens nothing in lower case, and where a script is not
written back as it is. None of these texts has a start tag with many attributes. -/
theorem not_process_process :
    let outcome := fun text => process (.ofHtml text) {}
    (HasFewAttributes ":fa-solid:a:" ∧ outcome (outcome ":fa-solid:a:") ≠ outcome ":fa-solid:a:") ∧
      (HasFewAttributes ":fa-solid:</b>a:" ∧
        collect (.ofHtml (outcome ":fa-solid:</b>a:")) {} ≠ []) ∧
      ∀ text ∈ ["<!-->", "< !-- a -->", "<a--><!--", "<Param>a",
          "<script><command></command></script>a", "<script><b a='\"'></b></script>",
          "<script><b x yz></b></script>", "<script><b \"></b></script>",
          "<script>< !-- < --></script>"],
        HasFewAttributes text ∧ outcome (outcome text) ≠ outcome text := by
  decide +kernel

end IconMarkup
