import IconMarkup.Html.Document
import IconMarkup.Proofs.Html.Sources
import IconMarkup.Proofs.Icon.Agreement

/-!
# Content of void elements

Markup leaves out what is inside a void element. Whether an element of an HTML text is given any
content is decided by its name as spelled there, and whether its content is written by the same
name in lower case. `process_keeps_all`: a document that is read has nothing inside void elements
exactly if no element has whose name is that of a void element in other letters, and then
processing writes every node, with the markup of the collected icons in order.
-/

namespace IconMarkup

open Html Icon Config
open Icon.Cut

/-! ### Markup with everything in it -/

mutual

/-- Whether no void element of a node has children. -/
def Node.voidsEmpty : Node → Bool
  | .element tag _ children => (!isVoidTag tag || children.isEmpty) && voidsEmptyIn children
  | .text _ => true
  | .raw _ => true
  | .comment _ => true

/-- Whether no void element of the nodes has children. -/
def voidsEmptyIn : List Node → Bool
  | [] => true
  | node :: rest => node.voidsEmpty && voidsEmptyIn rest

end

/-- The markup of an element around the markup of its children, which void elements keep. -/
def fullMarkupElement (tag : String) (attributes : Attributes) (inside : List Char) : List Char :=
  if tag = fragmentTag then inside
  else markupStart tag attributes ++ inside ++ if isVoidTag tag then [] else markupEnd tag

mutual

/-- The markup of a node with every node inside it. -/
def Node.fullMarkup : Node → List Char
  | .element tag attributes children => fullMarkupElement tag attributes (fullMarkupOf children)
  | .text content => (Node.text content).markup
  | .raw content => (Node.raw content).markup
  | .comment content => (Node.comment content).markup

/-- The markup of a list of nodes with every node inside them. -/
def fullMarkupOf : List Node → List Char
  | [] => []
  | node :: rest => node.fullMarkup ++ fullMarkupOf rest

end

private theorem voidsEmptyIn_append (first second : List Node) :
    voidsEmptyIn (first ++ second) = (voidsEmptyIn first && voidsEmptyIn second) := by
  induction first with
  | nil => simp [voidsEmptyIn]
  | cons node rest ih => simp [voidsEmptyIn, ih, Bool.and_assoc]

/-- Full markup is written one node after another. -/
theorem fullMarkupOf_append (first second : List Node) :
    fullMarkupOf (first ++ second) = fullMarkupOf first ++ fullMarkupOf second := by
  induction first with
  | nil => rfl
  | cons node rest ih => simp [fullMarkupOf, ih]

mutual

/-- Only what is inside void elements is left out of markup. -/
private theorem Node.markup_eq_fullMarkup :
    ∀ node : Node, node.voidsEmpty = true → node.markup = node.fullMarkup
  | .element tag attributes children, h => by
    rw [Node.voidsEmpty, Bool.and_eq_true] at h
    have hchildren := markupOf_eq_fullMarkupOf children h.2
    rw [Node.markup, Node.fullMarkup, markupElement, fullMarkupElement, hchildren]
    by_cases hvoid : isVoidTag tag = true
    · have hempty : children = [] := by simpa [hvoid] using h.1
      simp [hvoid, hempty, fullMarkupOf]
    · simp [hvoid]
  | .text content, _ => by rw [Node.fullMarkup]
  | .raw content, _ => by rw [Node.fullMarkup]
  | .comment content, _ => by rw [Node.fullMarkup]

/-- Where no void element has children, markup leaves out nothing. -/
private theorem markupOf_eq_fullMarkupOf :
    ∀ nodes : List Node, voidsEmptyIn nodes = true → markupOf nodes = fullMarkupOf nodes
  | [], _ => rfl
  | node :: rest, h => by
    rw [voidsEmptyIn, Bool.and_eq_true] at h
    rw [markupOf, fullMarkupOf, Node.markup_eq_fullMarkup node h.1,
      markupOf_eq_fullMarkupOf rest h.2]

end

/-! ### Icons -/

private theorem voidsEmptyIn_textNodes (cs : List Char) : voidsEmptyIn (textNodes cs) = true := by
  rw [textNodes]
  split <;> rfl

/-- What takes the place of a text has nothing inside void elements. -/
private theorem voidsEmptyIn_replace? {classes : Classes} {text : String} {nodes : List Node}
    (h : replace? classes text = some nodes) : voidsEmptyIn nodes = true := by
  rw [replace?_eq, Option.ite_none_left_eq_some, Option.some.injEq] at h
  rw [← h.2, Cut.nodes, voidsEmptyIn_append, voidsEmptyIn_textNodes, Bool.true_and]
  induction (cut text.toList).marks with
  | nil => rfl
  | cons mark marks ih =>
    rw [List.flatMap_cons, voidsEmptyIn_append, ih, Bool.and_true, markNodes, voidsEmptyIn,
      voidsEmptyIn_textNodes]
    rfl

section

variable {skip : List String} {classes : Classes}

mutual

private theorem Node.voidsEmptyIn_rewrite :
    ∀ node : Node, node.voidsEmpty = true →
      voidsEmptyIn (node.rewrite skip (replace? classes)) = true
  | .element tag attributes children, h => by
    rw [Node.rewrite]
    split
    · simpa [voidsEmptyIn] using h
    · rw [Node.voidsEmpty, Bool.and_eq_true] at h
      have hchildren := voidsEmptyIn_rewriteNodes children h.2
      by_cases hvoid : isVoidTag tag = true
      · have hempty : children = [] := by simpa [hvoid] using h.1
        simp [hempty, rewriteNodes, voidsEmptyIn, Node.voidsEmpty]
      · simp [voidsEmptyIn, Node.voidsEmpty, hvoid, hchildren]
  | .text content, _ => by
    rw [Node.rewrite]
    rcases h : replace? classes content with _ | nodes
    · rfl
    · exact voidsEmptyIn_replace? h
  | .raw content, _ => by
    rw [Node.rewrite]
    rfl
  | .comment content, _ => by
    rw [Node.rewrite]
    rfl

/-- Icons are put into no void element that was empty. -/
theorem voidsEmptyIn_rewriteNodes :
    ∀ nodes : List Node, voidsEmptyIn nodes = true →
      voidsEmptyIn (rewriteNodes skip (replace? classes) nodes) = true
  | [], _ => by
    rw [rewriteNodes]
    rfl
  | node :: rest, h => by
    rw [voidsEmptyIn, Bool.and_eq_true] at h
    rw [rewriteNodes, voidsEmptyIn_append, Node.voidsEmptyIn_rewrite node h.1,
      voidsEmptyIn_rewriteNodes rest h.2]
    rfl

end

end

/-! ### Pieces in order -/

/-- Whether pieces stand in a text one after the other, in this order. -/
def InOrder : List (List Char) → List Char → Prop
  | [], _ => True
  | piece :: rest, text => ∃ before after, text = before ++ piece ++ after ∧ InOrder rest after

namespace InOrder

/-- Pieces stay in order when something is put in front. -/
private theorem prepend (before : List Char) {pieces : List (List Char)} {text : List Char}
    (h : InOrder pieces text) : InOrder pieces (before ++ text) := by
  cases pieces with
  | nil => trivial
  | cons piece rest =>
    obtain ⟨first, after, rfl, hrest⟩ := h
    exact ⟨before ++ first, after, by simp, hrest⟩

/-- Pieces of one text come before the pieces of the text that follows it. -/
private theorem append {pieces pieces' : List (List Char)} {text text' : List Char}
    (h : InOrder pieces text) (h' : InOrder pieces' text') :
    InOrder (pieces ++ pieces') (text ++ text') := by
  induction pieces generalizing text with
  | nil => exact h'.prepend text
  | cons piece rest ih =>
    obtain ⟨before, after, rfl, hrest⟩ := h
    exact ⟨before, after ++ text', by simp, ih hrest⟩

/-- Pieces stay in order when something is put behind. -/
private theorem append_right {pieces : List (List Char)} {text : List Char}
    (h : InOrder pieces text) (after : List Char) : InOrder pieces (text ++ after) := by
  simpa using h.append (show InOrder [] after from trivial)

end InOrder

/-- The markup of the icon for a shortcode that is found. -/
def iconMarkup (classes : Classes) (found : FoundIcon) : List Char :=
  (Icon.element classes found.style found.icon).toNode.markup

section

variable {skip : List String} {classes : Classes}

/-- The nodes that take the place of a text are written with its icons in order. -/
private theorem inOrder_replace? {text : String} {nodes : List Node}
    (h : replace? classes text = some nodes) :
    InOrder ((foundIn classes text).map (iconMarkup classes)) (fullMarkupOf nodes) := by
  rw [replace?_eq, Option.ite_none_left_eq_some, Option.some.injEq] at h
  rw [← h.2, Cut.nodes, fullMarkupOf_append, foundIn_eq]
  refine InOrder.prepend _ ?_
  induction (cut text.toList).marks with
  | nil => trivial
  | cons mark marks ih =>
    rw [List.flatMap_cons, fullMarkupOf_append, markNodes, fullMarkupOf, List.append_assoc]
    exact ⟨[], _, rfl, ih.prepend _⟩

mutual

private theorem Node.inOrder_rewrite :
    ∀ node : Node, InOrder
      (((node.offeredTexts skip).flatMap (foundIn classes)).map (iconMarkup classes))
      (fullMarkupOf (node.rewrite skip (replace? classes)))
  | .element tag attributes children => by
    rw [Node.offeredTexts, Node.rewrite]
    split
    · trivial
    · have hchildren := inOrder_rewriteNodes children
      rw [fullMarkupOf, Node.fullMarkup, fullMarkupElement, fullMarkupOf, List.append_nil]
      split
      · exact hchildren
      · exact (hchildren.prepend _).append_right _
  | .text content => by
    rw [Node.offeredTexts, Node.rewrite, List.flatMap_singleton]
    rcases h : replace? classes content with _ | nodes
    · rw [foundIn_eq_nil_iff.mpr h]
      trivial
    · exact inOrder_replace? h
  | .raw content => by
    rw [Node.offeredTexts]
    trivial
  | .comment content => by
    rw [Node.offeredTexts]
    trivial

/-- Nodes are written with the icons of their offered texts in order. -/
theorem inOrder_rewriteNodes :
    ∀ nodes : List Node, InOrder
      (((offeredTexts skip nodes).flatMap (foundIn classes)).map (iconMarkup classes))
      (fullMarkupOf (rewriteNodes skip (replace? classes) nodes))
  | [] => by
    rw [offeredTexts]
    trivial
  | node :: rest => by
    rw [offeredTexts, rewriteNodes, fullMarkupOf_append, List.flatMap_append, List.map_append]
    exact (Node.inOrder_rewrite node).append (inOrder_rewriteNodes rest)

end

end

/-! ### Spelling -/

namespace Html

/-- Whether a name is that of a void element, but not as it is spelled. -/
def isRespelledVoid (name : List Char) : Bool :=
  isVoidTag (String.ofList name).toLower && !opensNothing name

mutual

/-- Whether no element of a node has children if its name is that of a void element in other
letters. Bodies of raw text elements have no elements. -/
def SourceNode.respelledVoidsEmpty : SourceNode → Bool
  | .element name _ children =>
    (!isRespelledVoid name || children.isEmpty) &&
      (isRawTextTag (String.ofList name).toLower || respelledVoidsEmptyIn children)
  | .text _ => true
  | .comment _ => true

/-- Whether no element of the nodes has children if its name is that of a void element in other
letters. -/
def respelledVoidsEmptyIn : List SourceNode → Bool
  | [] => true
  | node :: rest => node.respelledVoidsEmpty && respelledVoidsEmptyIn rest

end

private theorem voidsEmptyIn_rawText (content : List Char) :
    voidsEmptyIn (rawText content) = true := by
  rw [rawText]
  split <;> rfl

private theorem isVoidTag_of_isRawTextTag {tag : String} (h : isRawTextTag tag = true) :
    isVoidTag tag = false := by
  have htag : tag = "script" ∨ tag = "style" := by simpa [isRawTextTag] using h
  rcases htag with rfl | rfl <;> decide

mutual

private theorem SourceNode.voidsEmpty_toNode :
    ∀ node : SourceNode, node.Throughout SourceNode.IsRead →
      node.toNode.voidsEmpty = node.respelledVoidsEmpty
  | .element name attributes children, h => by
    obtain ⟨⟨-, -, hhollow⟩, hchildren⟩ := h
    have ih := voidsEmptyIn_toNodes children hchildren
    rw [SourceNode.toNode, Node.voidsEmpty, SourceNode.respelledVoidsEmpty, isRespelledVoid]
    by_cases hraw : isRawTextTag (String.ofList name).toLower = true
    · simp [hraw, isVoidTag_of_isRawTextTag hraw, voidsEmptyIn_rawText]
    · rw [if_neg hraw, ih]
      -- an element whose name as spelled opens nothing is empty in any case
      have hempty : (toNodes children).isEmpty = children.isEmpty := by
        cases children <;> rfl
      rw [hempty]
      rcases hname : opensNothing name with _ | _
      · simp [hraw]
      · simp [hhollow hname, respelledVoidsEmptyIn]
  | .text content, _ => by
    rw [SourceNode.toNode]
    rfl
  | .comment source, _ => by
    rw [SourceNode.toNode]
    rfl

/-- The void elements of a document are empty exactly if those are that the text spells in other
letters. -/
private theorem voidsEmptyIn_toNodes :
    ∀ nodes : List SourceNode, ThroughoutAll SourceNode.IsRead nodes →
      voidsEmptyIn (toNodes nodes) = respelledVoidsEmptyIn nodes
  | [], _ => by
    rw [toNodes]
    rfl
  | node :: rest, h => by
    rw [toNodes, voidsEmptyIn, respelledVoidsEmptyIn, SourceNode.voidsEmpty_toNode node h.1,
      voidsEmptyIn_toNodes rest h.2]

end

end Html

/-- A document read from an HTML text has nothing inside void elements exactly if no element of the
text has whose name is that of a void element in other letters. In that case processing writes
every node of the document, and the icons of what `collect` finds stand in its outcome in order. -/
theorem process_keeps_all (text : String) :
    (voidsEmptyIn (Document.ofHtml text).root.children = true ↔
        respelledVoidsEmptyIn (SourceNode.ofText (splitDoctype text.toList).2) = true) ∧
      (voidsEmptyIn (Document.ofHtml text).root.children = true → ∀ settings : Settings,
        (process (.ofHtml text) settings).toList =
            fullMarkupOf ((Document.ofHtml text).withIcons settings).1.root.children ∧
          InOrder ((collect (.ofHtml text) settings).map (iconMarkup settings.icons))
            (process (.ofHtml text) settings).toList) := by
  obtain ⟨nodes, hnodes⟩ : ∃ nodes, Document.ofHtml text = .ofNodes nodes := ⟨_, rfl⟩
  refine ⟨?_, fun hempty settings => ?_⟩
  · have hread : (Document.ofHtml text).root.children =
        rawText (splitDoctype text.toList).1 ++
          toNodes (SourceNode.ofText (splitDoctype text.toList).2) := rfl
    rw [hread, voidsEmptyIn_append, voidsEmptyIn_rawText, Bool.true_and,
      voidsEmptyIn_toNodes _ (isRead_ofText _)]
  · rw [hnodes] at hempty ⊢
    have hempty : voidsEmptyIn nodes = true := hempty
    have hmarkup : (process (.ofNodes nodes) settings).toList =
        fullMarkupOf
          (rewriteNodes settings.render.skipElements (replace? settings.icons) nodes) := by
      rw [toList_process_ofNodes, markupOf_eq_fullMarkupOf _ (voidsEmptyIn_rewriteNodes _ hempty)]
    refine ⟨?_, ?_⟩
    · rw [hmarkup, withIcons_ofNodes]
      rfl
    · rw [hmarkup]
      exact inOrder_rewriteNodes nodes

/-- In upper case a void element is open to what follows it, which then is not written: an icon is
found and left out. In lower case it is written. -/
theorem not_process_keeps_all_upper_case :
    voidsEmptyIn (Document.ofHtml "<BR>:fa-solid:x:").root.children = false ∧
      respelledVoidsEmptyIn (SourceNode.ofText (splitDoctype "<BR>:fa-solid:x:".toList).2) = false ∧
      (collect (.ofHtml "<BR>:fa-solid:x:") {}).map (·.shortcode) = [":fa-solid:x:"] ∧
      process (.ofHtml "<BR>:fa-solid:x:") {} = "<br>" ∧
      voidsEmptyIn (Document.ofHtml "<br>:fa-solid:x:").root.children = true ∧
      InOrder ((collect (.ofHtml "<br>:fa-solid:x:") {}).map (iconMarkup {}))
        (process (.ofHtml "<br>:fa-solid:x:") {}).toList := by
  have hrespelled : respelledVoidsEmptyIn
      (SourceNode.ofText (splitDoctype "<BR>:fa-solid:x:".toList).2) = false := by decide +kernel
  have hempty : voidsEmptyIn (Document.ofHtml "<br>:fa-solid:x:").root.children = true := by
    decide +kernel
  have hdropped := mt (process_keeps_all "<BR>:fa-solid:x:").1.mp (by rw [hrespelled]; simp)
  refine ⟨Bool.eq_false_iff.mpr hdropped, hrespelled, ?_, ?_, hempty, ?_⟩
  · decide +kernel
  · decide +kernel
  · exact ((process_keeps_all _).2 hempty {}).2

end IconMarkup
