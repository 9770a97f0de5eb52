import IconMarkup.Proofs.Html.RawBodies
import IconMarkup.Proofs.Html.RoundTrip
import IconMarkup.Proofs.Icon.Cut
import IconMarkup.Proofs.Tree.Rewriting

/-!
# Legible documents

Markup does not tell where a text ends and the next one begins, nor what is inside a void element:
`writtenFrom` is what it does tell. `LegibleNodes` singles out the nodes of which reading their
markup finds all that it tells (`readsTo_markupOf`). Compared with canonical nodes they may have odd
names, texts next to each other, scripts and style sheets, void elements with content, and at their
end a comment that is never closed. Their start tags have at most two attributes besides `id` and
`class`, so that the order in which the attributes are read is settled.
-/

namespace IconMarkup

open Html
open Icon.Cut

/-! ### What markup tells -/

mutual

/-- What the markup of a node tells of it. -/
def Node.written : Node → Node
  | .element tag attributes children =>
    .element tag attributes (if isVoidTag tag then [] else writtenFrom [] children)
  | .text content => .text content
  | .raw content => .raw content
  | .comment content => .comment content

/-- What markup tells of nodes after a text: neighbouring texts are one, and void elements are
empty. -/
def writtenFrom (before : List Char) : List Node → List Node
  | [] => textNodes before
  | .text content :: rest => writtenFrom (before ++ content.toList) rest
  | node :: rest => textNodes before ++ node.written :: writtenFrom [] rest

end

/-- Only text joins what comes before it; any other node ends the text. -/
theorem writtenFrom_cons {node : Node} (h : ∀ content, node ≠ .text content) (before : List Char)
    (rest : List Node) :
    writtenFrom before (node :: rest) = textNodes before ++ node.written :: writtenFrom [] rest :=
  writtenFrom.eq_3 before node rest h

/-- The markup of nodes is that of what it tells of them. -/
theorem markupOf_writtenFrom : ∀ (nodes : List Node) (before : List Char),
    markupOf (writtenFrom before nodes) = Text.escapeText before ++ markupOf nodes
  | [], before => by rw [writtenFrom, markupOf_textNodes, markupOf, List.append_nil]
  | .text content :: rest, before => by
    rw [writtenFrom, markupOf_writtenFrom rest, Text.escapeText_append, markupOf, Node.markup,
      List.append_assoc]
  | .element tag attributes children :: rest, before => by
    have hwritten : (Node.element tag attributes children).written.markup =
        (Node.element tag attributes children).markup := by
      rw [Node.written, Node.markup, Node.markup, markupElement, markupElement]
      by_cases hvoid : isVoidTag tag = true
      · have hfragment : tag ≠ fragmentTag := by
          rintro rfl
          exact absurd hvoid (by decide)
        simp [hvoid, hfragment]
      · rw [if_neg hvoid, if_neg hvoid, if_neg hvoid, markupOf_writtenFrom children []]
        rfl
    rw [writtenFrom_cons (by simp), markupOf_append, markupOf_textNodes, markupOf, markupOf,
      markupOf_writtenFrom rest [], hwritten]
    rfl
  | .raw content :: rest, before => by
    rw [writtenFrom_cons (by simp), markupOf_append, markupOf_textNodes, markupOf, markupOf,
      markupOf_writtenFrom rest [], Node.written]
    rfl
  | .comment content :: rest, before => by
    rw [writtenFrom_cons (by simp), markupOf_append, markupOf_textNodes, markupOf, markupOf,
      markupOf_writtenFrom rest [], Node.written]
    rfl

/-! ### Legible nodes -/

namespace Html

/-- What a start tag must be to be read as it is written, up to the order of attributes. -/
structure IsLegibleStart (tag : String) (attributes : Attributes) : Prop where
  name : IsName tag.toList
  lower : tag.toLower = tag
  names : ∀ entry ∈ attributes.toList, IsName entry.1.toList
  nameless : tag = "" → ∀ entry ∈ attributes.toList.head?, entry.1 = ""
  distinct : (attributes.toList.map (·.1)).Nodup

/-- A written comment from its first hyphen on. -/
def commentTail (content : List Char) : List Char :=
  ['-', '-'] ++ (content ++ ['-', '-', '>'])

/-- Whether a comment ends where it is meant to end. -/
def IsLegibleComment (content : List Char) : Prop :=
  readComment? (commentTail content) = some (commentTail content, [])

end Html

mutual

/-- Whether the markup of a node ends in a comment that is not closed. -/
def Node.isOpen : Node → Bool
  | .element tag _ children => !isVoidTag tag && isOpenIn children
  | .text _ => false
  | .raw _ => false
  | .comment content => content = ""

/-- Whether the markup of nodes has a comment that is not closed. -/
def isOpenIn : List Node → Bool
  | [] => false
  | node :: rest => node.isOpen || isOpenIn rest

end

mutual

/-- Whether reading the markup of a node finds all that it tells. -/
def Node.Legible : Node → Prop
  | .element tag attributes children =>
    IsLegibleStart tag attributes ∧ HasFewOthers attributes ∧ (isVoidTag tag = false →
      (opensNothing tag.toList = true → children = []) ∧
        (isOpenIn children = true → ¬ ['-', '-'] <:+: tag.toList) ∧
        (isRawTextTag tag = true → ∃ content, children = rawText content ∧ IsLegibleBody content) ∧
        (isRawTextTag tag = false → LegibleNodes children))
  | .text _ => True
  | .raw _ => False
  | .comment content => content = "" ∨ IsLegibleComment content.toList

/-- Whether reading the markup of nodes finds all that it tells. -/
def LegibleNodes : List Node → Prop
  | [] => True
  | node :: rest => node.Legible ∧ (node.isOpen = true → rest = []) ∧ LegibleNodes rest

end

/-! ### Reading -/

namespace Html

/-- The written attributes of a legible start tag are read one by one: each has a value, and what
the value could be confused with is escaped. -/
private theorem IsLegibleStart.isReadableStart {tag : String} {attributes : Attributes}
    (h : IsLegibleStart tag attributes) :
    IsReadableStart tag.toList (attributes.toList.map sourceEntry) where
  name := h.name
  readable := List.forall_mem_map.mpr fun entry hentry =>
    isReadableAttribute_sourceEntry (h.names entry hentry)
  values := by
    rw [← List.map_dropLast]
    exact List.forall_mem_map.mpr fun _ _ => rfl
  nameless hnil := by
    have hfirst := h.nameless (String.toList_eq_nil_iff.mp hnil)
    cases hattributes : attributes.toList with
    | nil => simp
    | cons first others =>
      have hname : first.1 = "" := hfirst first (by rw [hattributes]; rfl)
      simp [sourceEntry, hname]

/-- The name of the fragment is not the name of a start tag, so the element is written with its
tags. -/
theorem IsLegibleStart.ne_fragmentTag {tag : String} {attributes : Attributes}
    (h : IsLegibleStart tag attributes) : tag ≠ fragmentTag := by
  rintro rfl
  exact absurd (h.name.chars '#' (by decide)) (by decide)

/-- The markup of an element begins with its name and attributes between brackets. -/
theorem IsLegibleStart.exists_markup_eq {tag : String} {attributes : Attributes}
    (h : IsLegibleStart tag attributes) (children : List Node) :
    ∃ after, (Node.element tag attributes children).markup =
      '<' :: (tag.toList ++ (attributes.toList.flatMap markupAttribute ++ '>' :: after)) := by
  rw [Node.markup, markupElement, if_neg h.ne_fragmentTag, markupStart]
  split
  · exact ⟨[], by simp⟩
  · exact ⟨markupOf children ++ markupEnd tag, by simp⟩

/-- Void elements are among those whose start tag opens nothing. -/
private theorem opensNothing_of_isVoidTag {tag : String} (h : isVoidTag tag = true) :
    opensNothing tag.toList = true := by
  rw [opensNothing, String.ofList_toList]
  simp only [isVoidTag, List.contains_eq_mem, decide_eq_true_eq] at h ⊢
  revert h
  simp
  tauto

end Html

/-- How the markup of nodes ends. -/
def endingOf (nodes : List Node) : Ending :=
  if isOpenIn nodes then .inComment else .inText

/-- Whether a text is read as nodes of an HTML text that have few attributes and are decoded to the
given nodes, with their attributes arranged. -/
def ReadsTo (cs : List Char) (nodes : List Node) (ending : Ending) : Prop :=
  ∃ sources, Reads cs sources ending ∧ toNodes sources = arrangedNodes nodes ∧
    ThroughoutAll SourceNode.HasFewAttributes sources

/-- Nodes are decoded one by one. -/
theorem toNodes_append (first second : List SourceNode) :
    toNodes (first ++ second) = toNodes first ++ toNodes second := by
  induction first with
  | nil => rfl
  | cons node rest ih => simp [toNodes, ih]

/-- Attributes are arranged in each node by itself. -/
theorem arrangedNodes_append (first second : List Node) :
    arrangedNodes (first ++ second) = arrangedNodes first ++ arrangedNodes second := by
  induction first with
  | nil => rfl
  | cons node rest ih => simp [arrangedNodes, ih]

theorem arrangedNodes_textNodes (cs : List Char) :
    arrangedNodes (textNodes cs) = textNodes cs := by
  rw [textNodes]
  split <;> rfl

/-- An escaped text is read as the text, or as nothing if it is empty. -/
private theorem readsTo_textNodes (cs : List Char) :
    ReadsTo (Text.escapeText cs) (textNodes cs) .inText := by
  rw [ReadsTo, arrangedNodes_textNodes, textNodes]
  split
  · rename_i hnil
    exact ⟨[], hnil ▸ Reads.nil.inText, rfl, trivial⟩
  · rename_i hne
    refine ⟨_, .text (Text.escapeText_ne_nil hne) (Text.lt_not_mem_escapeText cs), ?_, trivial,
      trivial⟩
    rw [toNodes, toNodes, SourceNode.toNode, Text.unescape_escapeText]

/-! ### Raw text -/

@[simp]
theorem markupOf_rawText (content : List Char) : markupOf (rawText content) = content := by
  rw [rawText]
  split
  · rename_i hempty
    rw [List.isEmpty_iff.mp hempty]
    rfl
  · simp [markupOf, Node.markup]

@[simp]
theorem endingOf_rawText (content : List Char) : endingOf (rawText content) = .inText := by
  rw [rawText]
  split <;> rfl

@[simp]
theorem writtenFrom_rawText (content : List Char) :
    writtenFrom [] (rawText content) = rawText content := by
  rw [rawText]
  split <;> rfl

@[simp]
theorem arrangedNodes_rawText (content : List Char) :
    arrangedNodes (rawText content) = rawText content := by
  rw [rawText]
  split <;> rfl

/-- Raw text is not running text. -/
theorem offeredTexts_rawText (skip : List String) (content : List Char) :
    offeredTexts skip (rawText content) = [] := by
  rw [rawText]
  split <;> rfl

/-- Nothing in raw text is replaced. -/
theorem rewriteNodes_rawText {skip : List String} {replace? : String → Option (List Node)}
    (content : List Char) : rewriteNodes skip replace? (rawText content) = rawText content := by
  rw [rawText]
  split <;> rfl

/-! ### Nodes among others -/

/-- How the markup of a node other than text ends. -/
def Node.ending (node : Node) : Ending :=
  if node.isOpen then .inComment else .closed

/-- A node whose markup begins with a tag may stand between text and the rest. -/
private theorem ReadsTo.between {before piece : List Char} {node : Node} {rest : List Node}
    (hopen : node.isOpen = true → rest = []) (hmarkup : node.markup = '<' :: piece)
    (hnode : ReadsTo node.markup [node.written] node.ending)
    (hrest : ReadsTo (markupOf rest) (writtenFrom [] rest) (endingOf rest)) :
    ReadsTo (Text.escapeText before ++ markupOf (node :: rest))
      (textNodes before ++ node.written :: writtenFrom [] rest) (endingOf (node :: rest)) := by
  obtain ⟨texts, htexts, htextsNodes, htextsFew⟩ := readsTo_textNodes before
  obtain ⟨source, hsource, hsourceNodes, hsourceFew⟩ := hnode
  obtain ⟨others, hothers, hothersNodes, hothersFew⟩ := hrest
  rw [markupOf]
  rw [hmarkup] at hsource ⊢
  refine ⟨texts ++ (source ++ others), ?_, ?_, throughoutAll_append.mpr
    ⟨htextsFew, throughoutAll_append.mpr ⟨hsourceFew, hothersFew⟩⟩⟩
  · rcases hending : node.isOpen with _ | _
    · have hsame : endingOf (node :: rest) = endingOf rest := by
        simp [endingOf, isOpenIn, hending]
      rw [Node.ending, hending] at hsource
      rw [hsame]
      exact htexts.append_of_inText (hsource.append_of_closed hothers)
    · obtain rfl := hopen hending
      have hnone : others = [] := by
        rw [← hothers.ofText, markupOf, SourceNode.ofText, tokens, nest, closeAll, List.reverse_nil]
      rw [Node.ending, hending] at hsource
      rw [hnone, markupOf, List.append_nil, List.append_nil, endingOf, isOpenIn, hending]
      exact htexts.append_of_inText hsource
  · rw [toNodes_append, toNodes_append, htextsNodes, hsourceNodes, hothersNodes,
      arrangedNodes_append]
    rfl

/-- The markup of an element is read as the element, without what the markup does not tell, if what
is inside it is. -/
private theorem readsTo_markup_element {tag : String} {attributes : Attributes}
    {children : List Node} (h : (Node.element tag attributes children).Legible)
    (hinside : isVoidTag tag = false → ∃ sources,
      Reads (markupOf children) sources (endingOf children) ∧
        (if isRawTextTag tag then rawText (sourceOf sources) else toNodes sources) =
          arrangedNodes (writtenFrom [] children) ∧
        ThroughoutAll SourceNode.HasFewAttributes sources) :
    ReadsTo (Node.element tag attributes children).markup
      [(Node.element tag attributes children).written]
      (Node.element tag attributes children).ending := by
  rw [Node.Legible] at h
  obtain ⟨hstart, hothers, hcontent⟩ := h
  have hreadable := hstart.isReadableStart
  have hfew : ∀ sources, ThroughoutAll SourceNode.HasFewAttributes sources →
      ThroughoutAll SourceNode.HasFewAttributes [.element tag.toList
        (arrange (attributes.toList.map sourceEntry)) sources] := by
    intro sources hsources
    have hwritten := hasFewOthers_iff_sourceEntry.mp hothers
    exact ⟨⟨hasFewAttributes_arrange_iff.mpr hwritten, hsources⟩, trivial⟩
  have hdecode : ∀ sources, toNodes [.element tag.toList
      (arrange (attributes.toList.map sourceEntry)) sources] = [.element tag attributes.arranged
        (if isRawTextTag tag then rawText (sourceOf sources) else toNodes sources)] := by
    intro sources
    rw [toNodes, toNodes, SourceNode.toNode, String.ofList_toList, hstart.lower,
      decodeAttributes_arrange hstart.distinct]
  rw [Node.markup, markupElement, if_neg hstart.ne_fragmentTag, markupStart_eq, Node.ending,
    Node.isOpen, Node.written, ReadsTo, arrangedNodes, arrangedNodes, Node.arranged]
  rcases hvoid : isVoidTag tag with _ | _
  · obtain ⟨hempty, hhyphens, -, -⟩ := hcontent hvoid
    obtain ⟨sources, hsources, hnodes, hsourcesFew⟩ := hinside hvoid
    rcases hopens : opensNothing tag.toList with _ | _
    · have helement := Reads.element hreadable hopens hsources fun hending => hhyphens (by
        by_contra hclosed
        simp [endingOf, hclosed] at hending)
      have hending : (endingOf children).outside =
          if (!false && isOpenIn children) = true then .inComment else .closed := by
        cases hopen : isOpenIn children <;> simp [endingOf, hopen, Ending.outside]
      rw [hending] at helement
      exact ⟨_, helement, by rw [hdecode, hnodes]; rfl, hfew _ hsourcesFew⟩
    · -- the end tag is ignored
      obtain rfl := hempty hopens
      have hclose : '>' ∉ tag.toList := fun hmem =>
        ne_of_isNameChar (hstart.name.chars _ hmem) (by decide) rfl
      have hleaf := (Reads.leaf hreadable hopens).append_of_closed (.leafEnd hclose hopens)
      refine ⟨_, by simpa [markupOf, isOpenIn, markupEnd, endTag] using hleaf, ?_,
        hfew [] trivial⟩
      rw [hdecode]
      cases isRawTextTag tag <;> rfl
  · refine ⟨_, .leaf hreadable (opensNothing_of_isVoidTag hvoid), ?_, hfew [] trivial⟩
    rw [hdecode]
    cases isRawTextTag tag <;> rfl

/-- A legible comment is read as itself. An empty one is never closed, as far as reading goes. -/
private theorem readsTo_markup_comment {content : String} (h : (Node.comment content).Legible) :
    ReadsTo (Node.comment content).markup [(Node.comment content).written]
      (Node.comment content).ending := by
  rw [Node.Legible] at h
  rw [Node.ending, Node.isOpen]
  by_cases hnil : content = ""
  · subst hnil
    exact ⟨[.comment []], .openComment, rfl, trivial, trivial⟩
  · have hread := h.resolve_left hnil
    have hcomment : Reads (Node.comment content).markup
        [.comment (sourceComment content.toList)] .closed := by
      simpa [Node.markup, commentTail, sourceComment] using
        Reads.comment (List.prefix_append ..) hread
    refine ⟨[.comment (sourceComment content.toList)], by rwa [decide_eq_false hnil], ?_, trivial,
      trivial⟩
    rw [toNodes, toNodes, SourceNode.toNode, commentBody_sourceComment, String.ofList_toList]
    rfl

/-- The markup of legible nodes is read as what it tells of them, with attributes arranged. -/
theorem readsTo_markupOf : ∀ (nodes : List Node) (before : List Char), LegibleNodes nodes →
    ReadsTo (Text.escapeText before ++ markupOf nodes) (writtenFrom before nodes) (endingOf nodes)
  | [], before, _ => by
    rw [markupOf, List.append_nil]
    exact readsTo_textNodes before
  | .text content :: rest, before, h => by
    rw [LegibleNodes] at h
    have hrest := readsTo_markupOf rest (before ++ content.toList) h.2.2
    rw [Text.escapeText_append, List.append_assoc] at hrest
    simpa [markupOf, Node.markup, writtenFrom, endingOf, isOpenIn, Node.isOpen] using hrest
  | .element tag attributes children :: rest, before, h => by
    rw [LegibleNodes] at h
    obtain ⟨hnode, hopen, hrest⟩ := h
    have hlegible := hnode
    rw [Node.Legible] at hlegible
    obtain ⟨hstart, -, hcontent⟩ := hlegible
    obtain ⟨piece, hpiece⟩ := hstart.exists_markup_eq children
    have helement := readsTo_markup_element hnode fun hvoid => by
      obtain ⟨-, -, hraw, hchildren⟩ := hcontent hvoid
      rcases htag : isRawTextTag tag with _ | _
      · exact readsTo_markupOf children [] (hchildren htag)
      · obtain ⟨content, rfl, sources, hsources, hsource, hfew⟩ := hraw htag
        refine ⟨sources, by simpa using hsources, ?_, hfew⟩
        simp [hsource]
    rw [writtenFrom_cons (by simp)]
    exact .between hopen hpiece helement (readsTo_markupOf rest [] hrest)
  | .raw content :: rest, before, h => by
    rw [LegibleNodes, Node.Legible] at h
    exact h.1.elim
  | .comment content :: rest, before, h => by
    rw [LegibleNodes] at h
    rw [writtenFrom_cons (by simp)]
    exact .between h.2.1 rfl (readsTo_markup_comment h.1) (readsTo_markupOf rest [] h.2.2)

end IconMarkup
