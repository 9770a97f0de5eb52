import IconMarkup.Proofs.Html.Rereadable
import IconMarkup.Proofs.Icon.Processing

/-!
# Pieces of a page

What an HTML text consists of, in its order and each piece with the elements around it: tags,
comments, the bodies of raw text elements, and running text. The elements are named as the text
spells them. A document that is read is written as these pieces one after the other, apart from
those inside void elements (`toList_render_ofHtml`).
-/

namespace IconMarkup

namespace Html

/-- What stands at a place of a page. -/
inductive Part where
  /-- A tag or a comment, as it is written. -/
  | markup (written : List Char)
  /-- Text that is written as it is. -/
  | raw (content : List Char)
  /-- Text that is escaped when it is written. -/
  | text (content : String)

/-- The markup of what stands at a place. -/
def Part.written : Part → List Char
  | .markup written => written
  | .raw content => content
  | .text content => Text.escapeText content.toList

/-- A piece of a page. -/
structure Piece where
  /-- The names of the elements around it as they are spelled, innermost first. -/
  ancestors : List (List Char)
  /-- What stands there. -/
  part : Part

/-- Whether an element with one of some names is void. -/
def anyVoid (names : List (List Char)) : Bool :=
  names.any fun name => isVoidTag (String.ofList name).toLower

/-- The markup of a piece. What is inside a void element is not written. -/
def Piece.written (piece : Piece) : List Char :=
  if anyVoid piece.ancestors then [] else piece.part.written

mutual

/-- The pieces of a node inside some elements. A void element has no end tag. -/
def SourceNode.pieces (outer : List (List Char)) : SourceNode → List Piece
  | .element name attributes children =>
    let tag := (String.ofList name).toLower
    let inside := if isRawTextTag tag then [⟨name :: outer, .raw (sourceOf children)⟩]
      else piecesOf (name :: outer) children
    ⟨outer, .markup (markupStart tag (decodeAttributes attributes))⟩ ::
      (inside ++ [⟨outer, .markup (if isVoidTag tag then [] else markupEnd tag)⟩])
  | .text content => [⟨outer, .text (String.ofList (Text.unescape content))⟩]
  | .comment source =>
    [⟨outer, .markup ("<!--".toList ++ commentBody source ++ "-->".toList)⟩]

/-- The pieces of a list of nodes, in order. -/
def piecesOf (outer : List (List Char)) : List SourceNode → List Piece
  | [] => []
  | node :: rest => node.pieces outer ++ piecesOf outer rest

end

/-- The pieces of an HTML text, the document type declaration before all others. -/
def pieces (text : String) : List Piece :=
  ⟨[], .raw (splitDoctype text.toList).1⟩ ::
    piecesOf [] (SourceNode.ofText (splitDoctype text.toList).2)

/-! ### Elements around pieces -/

/-- The pieces inside an element. -/
def piecesInside (name : List Char) (outer : List (List Char)) (children : List SourceNode) :
    List Piece :=
  if isRawTextTag (String.ofList name).toLower then [⟨name :: outer, .raw (sourceOf children)⟩]
  else piecesOf (name :: outer) children

/-- The pieces of an element are its tags around the pieces inside. -/
theorem pieces_element (name : List Char) (attributes : List SourceAttribute)
    (children : List SourceNode) (outer : List (List Char)) :
    (SourceNode.element name attributes children).pieces outer =
      ⟨outer, .markup (markupStart (String.ofList name).toLower (decodeAttributes attributes))⟩ ::
        (piecesInside name outer children ++ [⟨outer, .markup
          (if isVoidTag (String.ofList name).toLower then []
            else markupEnd (String.ofList name).toLower)⟩]) := by
  rw [SourceNode.pieces]
  rfl

mutual

private theorem SourceNode.suffix_of_mem_pieces :
    ∀ (node : SourceNode) (outer : List (List Char)),
      ∀ piece ∈ node.pieces outer, outer <:+ piece.ancestors
  | .element name attributes children, outer => by
    intro piece hpiece
    rw [pieces_element, List.mem_cons, List.mem_append, List.mem_singleton] at hpiece
    rcases hpiece with rfl | hinside | rfl
    · exact List.suffix_rfl
    · refine (List.suffix_cons name outer).trans ?_
      rw [piecesInside] at hinside
      split at hinside
      · obtain rfl := List.mem_singleton.mp hinside
        exact List.suffix_rfl
      · exact suffix_of_mem_piecesOf children (name :: outer) piece hinside
    · exact List.suffix_rfl
  | .text content, outer => by simp [SourceNode.pieces]
  | .comment source, outer => by simp [SourceNode.pieces]

/-- The elements around nodes are around their pieces. -/
private theorem suffix_of_mem_piecesOf :
    ∀ (nodes : List SourceNode) (outer : List (List Char)),
      ∀ piece ∈ piecesOf outer nodes, outer <:+ piece.ancestors
  | [], outer => by simp [piecesOf]
  | node :: rest, outer => by
    intro piece hpiece
    rcases List.mem_append.mp hpiece with hnode | hrest
    · exact SourceNode.suffix_of_mem_pieces node outer piece hnode
    · exact suffix_of_mem_piecesOf rest outer piece hrest

end

/-- An element is around the pieces inside it. -/
theorem suffix_of_mem_piecesInside {name : List Char} {outer : List (List Char)}
    {children : List SourceNode} {piece : Piece} (h : piece ∈ piecesInside name outer children) :
    (name :: outer) <:+ piece.ancestors := by
  rw [piecesInside] at h
  split at h
  · obtain rfl := List.mem_singleton.mp h
    exact List.suffix_rfl
  · exact suffix_of_mem_piecesOf children _ piece h

/-! ### Writing -/

/-- What is inside a void element stays so further inside. -/
private theorem anyVoid_of_suffix {inner outer : List (List Char)} (h : outer <:+ inner)
    (houter : anyVoid outer = true) : anyVoid inner = true := by
  obtain ⟨name, hname, hvoid⟩ := List.any_eq_true.mp houter
  exact List.any_eq_true.mpr ⟨name, h.subset hname, hvoid⟩

/-- Whether pieces are shown as in markup: tags, comments and raw text as they are, and nothing of
what is inside a void element. -/
structure ShowsMarkup (shown : Piece → List Char) : Prop where
  markup : ∀ {outer content}, anyVoid outer = false → shown ⟨outer, .markup content⟩ = content
  raw : ∀ {outer content}, anyVoid outer = false → shown ⟨outer, .raw content⟩ = content
  void : ∀ {piece}, anyVoid piece.ancestors = true → shown piece = []

/-- What is written of a piece shows the markup of a page outside void elements. -/
theorem showsMarkup_written : ShowsMarkup Piece.written where
  markup h := if_neg (by rw [h]; simp)
  raw h := if_neg (by rw [h]; simp)
  void h := if_pos h

section Element

variable {shown : Piece → List Char} {name : List Char} {attributes : List SourceAttribute}
  {children : List SourceNode} {outer : List (List Char)}

/-- An element is shown as its tags around what is shown of the pieces inside. -/
theorem ShowsMarkup.flatMap_element (hshown : ShowsMarkup shown)
    (hname : IsReadStart name attributes) (houter : anyVoid outer = false) {nodes : List Node}
    (hraw : isRawTextTag (String.ofList name).toLower = true →
      nodes = rawText (sourceOf children))
    (hinside : isRawTextTag (String.ofList name).toLower = false →
      anyVoid (name :: outer) = false →
        (piecesOf (name :: outer) children).flatMap shown = markupOf nodes) :
    ((SourceNode.element name attributes children).pieces outer).flatMap shown =
      (Node.element (String.ofList name).toLower (decodeAttributes attributes) nodes).markup := by
  have htag := hname.isLegibleStart.ne_fragmentTag
  rw [pieces_element, List.flatMap_cons, List.flatMap_append, List.flatMap_singleton,
    hshown.markup houter, hshown.markup houter, Node.markup, markupElement, if_neg htag]
  have hnames : anyVoid (name :: outer) = isVoidTag (String.ofList name).toLower := by
    rw [anyVoid, List.any_cons, ← anyVoid, houter, Bool.or_false]
  rcases hvoid : isVoidTag (String.ofList name).toLower with _ | _
  · rw [hvoid] at hnames
    have hbody : (piecesInside name outer children).flatMap shown = markupOf nodes := by
      rw [piecesInside]
      split
      · rename_i h
        rw [List.flatMap_singleton, hshown.raw hnames, hraw h, markupOf_rawText]
      · rename_i h
        exact hinside (Bool.eq_false_iff.mpr h) hnames
    rw [hbody]
    simp
  · -- nothing is shown between the tags, because the element is around it
    have hbody : (piecesInside name outer children).flatMap shown = [] := by
      refine List.flatMap_eq_nil_iff.mpr fun piece hpiece => hshown.void ?_
      exact anyVoid_of_suffix (suffix_of_mem_piecesInside hpiece) (hnames.trans hvoid)
    rw [hbody]
    simp

end Element

mutual

private theorem SourceNode.flatMap_written :
    ∀ node : SourceNode, node.Throughout SourceNode.IsRead → ∀ {outer : List (List Char)},
      anyVoid outer = false → (node.pieces outer).flatMap Piece.written = node.toNode.markup
  | .element name attributes children, h, outer, houter => by
    rw [SourceNode.toNode]
    refine showsMarkup_written.flatMap_element h.1.1 houter (fun hraw => if_pos hraw)
      fun hraw hinner => ?_
    rw [flatMap_written_piecesOf children h.2 hinner, hraw]
    rfl
  | .text content, _, outer, houter => by
    simp [SourceNode.pieces, SourceNode.toNode, Piece.written, Part.written, houter, Node.markup]
  | .comment source, _, outer, houter => by
    simp [SourceNode.pieces, SourceNode.toNode, Piece.written, Part.written, houter, Node.markup]

/-- Nodes are written as their pieces. -/
theorem flatMap_written_piecesOf :
    ∀ nodes : List SourceNode, ThroughoutAll SourceNode.IsRead nodes →
      ∀ {outer : List (List Char)}, anyVoid outer = false →
        (piecesOf outer nodes).flatMap Piece.written = markupOf (toNodes nodes)
  | [], _, outer, _ => by
    rw [piecesOf, toNodes]
    rfl
  | node :: rest, h, outer, houter => by
    rw [piecesOf, toNodes, markupOf, List.flatMap_append,
      SourceNode.flatMap_written node h.1 houter, flatMap_written_piecesOf rest h.2 houter]

end

end Html

open Html

/-- A document that is read is written as the pieces of its text. -/
theorem toList_render_ofHtml (text : String) :
    (Document.ofHtml text).render.toList = (pieces text).flatMap Piece.written := by
  rw [Document.ofHtml, toList_render_ofNodes, markupOf_append, markupOf_rawText, pieces,
    List.flatMap_cons, flatMap_written_piecesOf _ (isRead_ofText _) rfl,
    showsMarkup_written.raw rfl]

end IconMarkup
