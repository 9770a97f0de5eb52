import IconMarkup.Proofs.Html.AttributeCount
import IconMarkup.Proofs.Html.Reading

/-!
# Raw text bodies

The body of a script or a style sheet is read like any other text and then written back from the
tree that it was read as. What is written can differ from what was read, and it can be read
differently once more. `bodyReadable` says of the tree when it is not: what is written back is then
read as a tree that is written in the same way, and has few attributes if the first tree has
(`isLegibleBody_sourceOf`).
-/

namespace IconMarkup.Html

/-! ### Readable bodies -/

/-- Whether attributes are read as they are written back: between quotes, with a value for each but
the last, and with a name for one without a value. -/
def attributesReadable (attributes : List SourceAttribute) : Bool :=
  attributes.all (fun entry => entry ≠ ([], none) && !(entry.2.getD []).contains '"') &&
    attributes.dropLast.all (·.2.isSome)

mutual

/-- Whether a node in a raw text body is read as it is written back. A comment that begins with
another character than `<` becomes text. -/
def SourceNode.readableInBody : SourceNode → Bool
  | .element name attributes children =>
    name ≠ "command".toList && attributesReadable attributes && bodyReadable children
  | .text _ => true
  | .comment source => source.head? = some '<' || !source.contains '<'

/-- Whether the nodes of a raw text body are read as they are written back. -/
def bodyReadable : List SourceNode → Bool
  | [] => true
  | node :: rest => node.readableInBody && bodyReadable rest

end

/-- Whether a raw text body is written back as it is after it has been read. -/
def IsStableBody (content : List Char) : Prop :=
  ∃ nodes, Reads content nodes .inText ∧ sourceOf nodes = content

/-- Whether a stable raw text body has few attributes in its start tags, so that their order is
settled. -/
def IsLegibleBody (content : List Char) : Prop :=
  ∃ nodes, Reads content nodes .inText ∧ sourceOf nodes = content ∧
    ThroughoutAll SourceNode.HasFewAttributes nodes

/-! ### What is written back -/

/-- What is read as a start tag is read again if its attributes are. -/
private theorem IsReadStart.isReadableStart {name : List Char} {attributes : List SourceAttribute}
    (h : IsReadStart name attributes) (hattributes : attributesReadable attributes = true) :
    IsReadableStart name attributes where
  name := h.name
  readable entry hentry := by
    rw [attributesReadable, Bool.and_eq_true, List.all_eq_true] at hattributes
    have hboth := hattributes.1 entry hentry
    rw [Bool.and_eq_true] at hboth
    refine ⟨h.names entry hentry, fun value hvalue => ?_, by simpa using hboth.1⟩
    simpa [Option.mem_def.mp hvalue] using hboth.2
  values := by
    rw [attributesReadable, Bool.and_eq_true, List.all_eq_true, List.all_eq_true] at hattributes
    exact hattributes.2
  nameless := h.nameless

/-- Nodes are written back one after another. -/
theorem sourceOf_append (first second : List SourceNode) :
    sourceOf (first ++ second) = sourceOf first ++ sourceOf second := by
  induction first with
  | nil => rfl
  | cons node rest ih => simp [sourceOf, ih]

/-- Text without tags is read as itself. -/
private theorem isLegibleBody_of_lt_notMem {before : List Char} (h : '<' ∉ before) :
    IsLegibleBody before := by
  by_cases hnil : before = []
  · exact ⟨[], hnil ▸ Reads.nil.inText, hnil.symm, trivial⟩
  · exact ⟨[.text before], .text hnil h, by simp [sourceOf, SourceNode.source], trivial, trivial⟩

/-- A body without tags is stable. -/
theorem isStableBody_of_lt_notMem {before : List Char} (h : '<' ∉ before) :
    IsStableBody before := by
  obtain ⟨nodes, hreads, hsource, -⟩ := isLegibleBody_of_lt_notMem h
  exact ⟨nodes, hreads, hsource⟩

/-- A piece that begins with a tag may stand between text and the rest of a body. -/
private theorem IsLegibleBody.between {before piece rest : List Char} {node : SourceNode}
    (hrest : IsLegibleBody rest) (hlt : '<' ∉ before)
    (hpiece : Reads ('<' :: piece) [node] .closed) (hsource : node.source = '<' :: piece)
    (hfew : node.Throughout SourceNode.HasFewAttributes) :
    IsLegibleBody (before ++ ('<' :: piece ++ rest)) := by
  obtain ⟨texts, htexts, htextsSource, htextsFew⟩ := isLegibleBody_of_lt_notMem hlt
  obtain ⟨others, hothers, hothersSource, hothersFew⟩ := hrest
  refine ⟨texts ++ ([node] ++ others),
    htexts.append_of_inText (hpiece.append_of_closed hothers), ?_,
    throughoutAll_append.mpr ⟨htextsFew, hfew, hothersFew⟩⟩
  rw [sourceOf_append, htextsSource, sourceOf_append, hothersSource, sourceOf, sourceOf, hsource,
    List.append_nil]

/-- An element of a raw text body is read as it is written back, if what is inside it is. -/
private theorem exists_reads_element {name : List Char} {attributes : List SourceAttribute}
    {children : List SourceNode} (h : (SourceNode.element name attributes children).IsRead)
    (hfew : (SourceNode.element name attributes children).HasFewAttributes)
    (hbody : (SourceNode.element name attributes children).readableInBody = true)
    (hinside : IsLegibleBody (sourceOf children)) :
    ∃ node, Reads (SourceNode.element name attributes children).source [node] .closed ∧
      node.source = (SourceNode.element name attributes children).source ∧
        node.Throughout SourceNode.HasFewAttributes := by
  obtain ⟨hstart, harranged, hempty⟩ := h
  rw [SourceNode.readableInBody, Bool.and_eq_true, Bool.and_eq_true, decide_eq_true_eq] at hbody
  obtain ⟨⟨hcommand, hattributes⟩, -⟩ := hbody
  have hreadable := hstart.isReadableStart hattributes
  have halone : writtenAlone name = opensNothing name := by
    rw [writtenAlone, decide_eq_false hcommand, Bool.or_false]
  rw [SourceNode.source, halone]
  rcases hname : opensNothing name with _ | _
  · obtain ⟨nodes, hnodes, hsource, hnodesFew⟩ := hinside
    refine ⟨.element name (arrange attributes) nodes, ?_, ?_,
      hasFewAttributes_arrange_iff.mpr hfew, hnodesFew⟩
    · have helement : Reads _ _ .closed := hnodes.element hreadable hname (by simp)
      simpa [startTag, endTag] using helement
    · rw [SourceNode.source, halone, hname, harranged, hsource]
  · refine ⟨.element name (arrange attributes) [], ?_, ?_,
      hasFewAttributes_arrange_iff.mpr hfew, trivial⟩
    · exact .leaf hreadable hname
    · rw [SourceNode.source, halone, hname, harranged]
      rfl

/-- What is written back from nodes that are readable is legible, with text before it. -/
private theorem isLegibleBody_append_sourceOf :
    ∀ (nodes : List SourceNode) (before : List Char), ThroughoutAll SourceNode.IsRead nodes →
      ThroughoutAll SourceNode.HasFewAttributes nodes → bodyReadable nodes = true →
        '<' ∉ before → IsLegibleBody (before ++ sourceOf nodes)
  | [], before, _, _, _, hlt => by
    rw [sourceOf, List.append_nil]
    exact isLegibleBody_of_lt_notMem hlt
  | .text content :: rest, before, h, hfew, hbody, hlt => by
    have hcontent : '<' ∉ content := h.1.2
    rw [bodyReadable, Bool.and_eq_true] at hbody
    rw [sourceOf, SourceNode.source, ← List.append_assoc]
    exact isLegibleBody_append_sourceOf rest (before ++ content) h.2 hfew.2 hbody.2
      (by simp [hlt, hcontent])
  | .comment source :: rest, before, h, hfew, hbody, hlt => by
    rw [bodyReadable, Bool.and_eq_true] at hbody
    rw [sourceOf, SourceNode.source]
    by_cases hsource : '<' ∈ source
    · have hhead : source.head? = some '<' := by
        simpa [SourceNode.readableInBody, hsource] using hbody.1
      have hcomment : IsReadComment source := h.1
      rcases hcomment with rfl | ⟨first, body, rfl, hstart, hread⟩
      · cases hhead
      · cases hhead
        have hrest := isLegibleBody_append_sourceOf rest [] h.2 hfew.2 hbody.2 (by simp)
        exact hrest.between hlt (.comment hstart hread) rfl trivial
    · rw [← List.append_assoc]
      exact isLegibleBody_append_sourceOf rest (before ++ source) h.2 hfew.2 hbody.2
        (by simp [hlt, hsource])
  | .element name attributes children :: rest, before, h, hfew, hbody, hlt => by
    rw [bodyReadable, Bool.and_eq_true] at hbody
    have hchildren : bodyReadable children = true := by
      have hnode := hbody.1
      rw [SourceNode.readableInBody, Bool.and_eq_true] at hnode
      exact hnode.2
    obtain ⟨node, hnode, hsource, hnodeFew⟩ := exists_reads_element h.1.1 hfew.1.1 hbody.1
      (isLegibleBody_append_sourceOf children [] h.1.2 hfew.1.2 hchildren (by simp))
    have hrest := isLegibleBody_append_sourceOf rest [] h.2 hfew.2 hbody.2 (by simp)
    obtain ⟨piece, hpiece⟩ : ∃ piece,
        (SourceNode.element name attributes children).source = '<' :: piece := by
      rw [SourceNode.source]
      split <;> exact ⟨_, rfl⟩
    rw [hpiece] at hnode hsource
    rw [sourceOf, hpiece]
    exact hrest.between hlt hnode hsource hnodeFew

/-- What is written back from readable nodes is read as nodes that are written back in the same
way, and whose start tags have no more attributes. -/
theorem isLegibleBody_sourceOf {nodes : List SourceNode}
    (h : ThroughoutAll SourceNode.IsRead nodes)
    (hfew : ThroughoutAll SourceNode.HasFewAttributes nodes) (hbody : bodyReadable nodes = true) :
    IsLegibleBody (sourceOf nodes) :=
  isLegibleBody_append_sourceOf nodes [] h hfew hbody (by simp)

end IconMarkup.Html
