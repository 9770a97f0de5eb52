import Mathlib.Data.List.Infix
import IconMarkup.Proofs.Html.Rereading
import IconMarkup.Proofs.Tree.AttributeOrder

/-!
# Texts that are read again as they are written

The document of an HTML text with few attributes is legible unless the text has one of a few
oddities, which `rereadableAmong` excludes (`legibleNodes_toNodes`): a comment that is closed but
lacks one of its delimiters, an element with content whose name in lower case opens nothing, a
comment that is never closed in an element with two hyphens in its name, or a script or style sheet
that is not written back as it is. Attributes that are read are arranged
(`arrangedNodes_toNodes`).
-/

namespace IconMarkup

open Html

namespace Html

/-! ### Names in lower case -/

/-- A character becomes a lower-case letter or stays as it is. -/
private theorem isPlainChar_toLower_or (c : Char) :
    isPlainChar c.toLower = true ∨ c.toLower = c := by
  by_cases hlower : c.toLower.isLower = true
  · exact .inl (isPlainChar_of_isLower hlower)
  · exact .inr (eq_of_toLower_eq rfl (Bool.eq_false_iff.mpr hlower)).symm

/-- A character of a name is one in lower case too. -/
private theorem isNameChar_toLower {c : Char} (h : isNameChar c = true) :
    isNameChar c.toLower = true := by
  rcases isPlainChar_toLower_or c with hplain | hsame
  · exact isNameChar_of_isPlainChar hplain
  · rwa [hsame]

/-- A name is one in lower case too. -/
private theorem IsName.toLower {name : List Char} (h : IsName name) :
    IsName (String.ofList name).toLower.toList := by
  rw [toList_toLower, String.toList_ofList]
  refine ⟨fun c hc => ?_, fun hslash => ?_⟩
  · obtain ⟨d, hd, rfl⟩ := List.mem_map.mp hc
    exact isNameChar_toLower (h.chars d hd)
  · obtain ⟨c, hc, hlower⟩ := Option.map_eq_some_iff.mp (List.head?_map ▸ hslash)
    rw [eq_of_toLower_eq hlower (by decide)] at hc
    exact h.noSlash hc

/-- A name in lower case stays as it is in lower case. -/
private theorem toLower_toLower (name : List Char) :
    (String.ofList name).toLower.toLower = (String.ofList name).toLower := by
  rw [← String.toList_inj, toList_toLower, toList_toLower, List.map_map]
  refine List.map_congr_left fun c _ => ?_
  rcases isPlainChar_toLower_or c with hplain | hsame
  · exact toLower_of_isPlainChar hplain
  · rw [Function.comp_apply, hsame, hsame]

/-! ### Decoded start tags -/

/-- A start tag that is read is decoded to a legible one. -/
theorem IsReadStart.isLegibleStart {name : List Char} {attributes : List SourceAttribute}
    (h : IsReadStart name attributes) :
    IsLegibleStart (String.ofList name).toLower (decodeAttributes attributes) where
  name := h.name.toLower
  lower := toLower_toLower name
  names := by
    refine Attributes.forall_mem_ofList (p := fun key => IsName key.toList)
      (List.forall_mem_map.mpr fun entry hentry => ?_)
    rw [String.toList_ofList]
    exact h.names entry hentry
  nameless htag := by
    refine Attributes.head?_ofList (p := (· = "")) fun entry hentry => ?_
    have hname : name = [] := by
      have hlower := toList_toLower (String.ofList name)
      rw [htag] at hlower
      simpa using hlower
    rw [List.head?_map] at hentry
    obtain ⟨first, hfirst, rfl⟩ := Option.map_eq_some_iff.mp hentry
    rw [h.nameless hname first hfirst]
  distinct := (Attributes.isMapOf_ofList _).distinct

/-- Arranged attributes are decoded to arranged ones. -/
theorem arranged_decodeAttributes {attributes : List SourceAttribute}
    (h : arrange attributes = attributes) :
    (decodeAttributes attributes).arranged = decodeAttributes attributes := by
  let decode := fun entry : SourceAttribute =>
    (String.ofList entry.1, String.ofList (Text.unescape (entry.2.getD [])))
  let others := (attributes.filter fun entry =>
    entry.1 ≠ "id".toList ∧ entry.1 ≠ "class".toList).map decode
  have hothers : ∀ entry ∈ others, entry.1 ≠ "id" ∧ entry.1 ≠ "class" := by
    refine List.forall_mem_map.mpr fun entry hentry => ?_
    have hname := of_decide_eq_true (List.mem_filter.mp hentry).2
    rw [← String.toList_inj.ne, ← String.toList_inj.ne, String.toList_ofList]
    exact hname
  have hkept : ∀ entry ∈ (Attributes.ofList others).toList, entry.1 ≠ "id" ∧ entry.1 ≠ "class" :=
    Attributes.forall_mem_ofList (p := fun key => key ≠ "id" ∧ key ≠ "class") hothers
  have hdecode : decodeAttributes attributes = Attributes.ofList (others ++
      (lastValue "id" attributes).map decode ++ (lastValue "class" attributes).map decode) := by
    rw [decodeAttributes]
    conv => lhs; rw [← h, arrange, List.map_append, List.map_append]
  -- the last values come after all other attributes, and there is at most one of each name
  have hlast : ∀ {name : String} {entries : List (String × String)},
      (∀ entry ∈ entries, entry.1 ≠ name) → ∃ named : List (String × String),
        (∀ entry ∈ named, entry.1 = name) ∧ (lastValue name attributes).map decode = named ∧
          Attributes.ofList (entries ++ named) = ⟨(Attributes.ofList entries).toList ++ named⟩ := by
    intro name entries hentries
    rcases lastValue_cases name attributes with hnil | ⟨value, -, hvalue⟩
    · exact ⟨[], by simp, by rw [hnil]; rfl, by simp [Attributes.toList]⟩
    · refine ⟨[(name, String.ofList (Text.unescape value))], by simp, ?_,
        Attributes.ofList_concat _ hentries⟩
      simp [hvalue, decode]
  obtain ⟨ids, hids, hid, hofId⟩ := hlast fun entry hentry => (hothers entry hentry).1
  have hbefore : ∀ entry ∈ others ++ ids, entry.1 ≠ "class" :=
    List.forall_mem_append.mpr ⟨fun entry hentry => (hothers entry hentry).2,
      fun entry hentry => by simp [hids entry hentry]⟩
  obtain ⟨classes, hclasses, hclass, hofClass⟩ := hlast hbefore
  rw [hdecode, hid, hclass, hofClass, hofId]
  exact Attributes.arranged_append hkept hids hclasses

/-! ### Rereadable texts -/

/-- Whether a comment is one that is written as it was read: it has both of its delimiters, or it
is never closed. -/
def commentRereadable (source : List Char) : Bool :=
  source.isEmpty || (source.head? = some '<' && source ≠ "<!-->".toList)

mutual

/-- Whether a node is decoded to one that is read again as it is written. What is inside a void
element is not written. -/
def SourceNode.rereadable : SourceNode → Bool
  | .element name _ children =>
    let tag := (String.ofList name).toLower
    isVoidTag tag || ((!opensNothing tag.toList || children.isEmpty) &&
      if isRawTextTag tag then bodyReadable children
      else rereadableAmong children &&
        !(isOpenIn (toNodes children) && decide (['-', '-'] <:+: tag.toList)))
  | .text _ => true
  | .comment source => commentRereadable source

/-- Whether the nodes of a text are decoded to ones that are read again as they are written. -/
def rereadableAmong : List SourceNode → Bool
  | [] => true
  | node :: rest => node.rereadable && rereadableAmong rest

end

/-- What is read as a comment with both of its delimiters is the written form of its content. -/
private theorem exists_sourceComment {source : List Char} (h : IsReadComment source)
    (hnil : source ≠ []) (hsource : commentRereadable source = true) :
    ∃ content, content ≠ [] ∧ IsLegibleComment content ∧ source = sourceComment content := by
  rcases h with rfl | ⟨before, body, rfl, hstart, hread⟩
  · exact absurd rfl hnil
  obtain ⟨more, rfl⟩ := hstart
  simp only [commentRereadable, List.isEmpty_cons, Bool.false_or, Bool.and_eq_true,
    decide_eq_true_eq, List.head?_cons, Option.some.injEq] at hsource
  obtain ⟨rfl, hne⟩ := hsource
  cases more with
  | nil => cases hread
  | cons c rest =>
    by_cases hbracket : c = '>'
    · -- the comment ends at once
      subst hbracket
      have hrest : rest = [] := by
        have hbody : some (['-', '-', '>'], rest) = some (['-', '-'] ++ '>' :: rest, []) := hread
        cases hbody
        rfl
      rw [hrest] at hne
      exact absurd rfl hne
    · obtain ⟨inner, hinner⟩ : ∃ inner, readComment? rest = some (inner, []) := by
        have hmap : readComment? ('-' :: '-' :: c :: rest) =
            some (['-', '-'] ++ c :: rest, []) := hread
        rw [readComment?.eq_2 _ _ hbracket] at hmap
        obtain ⟨⟨inner, rest'⟩, hinner, he⟩ := Option.map_eq_some_iff.mp hmap
        cases he
        exact ⟨_, hinner⟩
      obtain ⟨content, hcontent⟩ := suffix_of_readComment? hinner
      have hrest : rest = content ++ ['-', '-', '>'] := by
        rw [(readComment?_eq_some hinner).1, List.append_nil, hcontent]
      rw [hrest] at hread ⊢
      exact ⟨c :: content, by simp, hread, rfl⟩

/-- A comment that is written as it was read is legible, or is never closed. -/
private theorem legible_toNode_comment {source : List Char} (h : IsReadComment source)
    (hsource : commentRereadable source = true) :
    (SourceNode.comment source).toNode.Legible ∧
      (SourceNode.comment source).toNode.isOpen = source.isEmpty := by
  rw [SourceNode.toNode, Node.Legible, Node.isOpen]
  by_cases hnil : source = []
  · subst hnil
    exact ⟨.inl rfl, rfl⟩
  · obtain ⟨content, hne, hlegible, rfl⟩ := exists_sourceComment h hnil hsource
    rw [commentBody_sourceComment, String.toList_ofList]
    refine ⟨.inr hlegible, ?_⟩
    have hcontent : String.ofList content ≠ "" := by
      rw [ne_eq, ← String.toList_inj, String.toList_ofList]
      exact hne
    rw [decide_eq_false hcontent]
    rfl

private theorem isOpenIn_rawText (content : List Char) : isOpenIn (rawText content) = false := by
  rw [rawText]
  split <;> rfl

mutual

private theorem SourceNode.isOpen_toNode : ∀ node : SourceNode,
    node.Throughout SourceNode.IsRead → node.rereadable = true → node.toNode.isOpen = true →
      node.isOpen = true
  | .element name attributes children, h, hsound, hopen => by
    rw [SourceNode.toNode, Node.isOpen, Bool.and_eq_true, Bool.not_eq_true'] at hopen
    rw [SourceNode.rereadable, hopen.1, Bool.false_or, Bool.and_eq_true] at hsound
    rw [SourceNode.isOpen]
    by_cases hraw : isRawTextTag (String.ofList name).toLower = true
    · rw [if_pos hraw, isOpenIn_rawText] at hopen
      cases hopen.2
    · rw [if_neg hraw] at hopen hsound
      rw [Bool.and_eq_true] at hsound
      exact isOpenAmong_of_toNodes children h.2 hsound.2.1 hopen.2
  | .text content, _, _, hopen => by
    rw [SourceNode.toNode, Node.isOpen] at hopen
    cases hopen
  | .comment source, h, hsound, hopen => by
    rw [SourceNode.rereadable] at hsound
    rwa [(legible_toNode_comment h hsound).2] at hopen

/-- What is open in the document is open in the text. -/
private theorem isOpenAmong_of_toNodes : ∀ nodes : List SourceNode,
    ThroughoutAll SourceNode.IsRead nodes → rereadableAmong nodes = true →
      isOpenIn (toNodes nodes) = true → isOpenAmong nodes = true
  | [], _, _, hopen => by
    rw [toNodes] at hopen
    exact hopen
  | node :: rest, h, hsound, hopen => by
    rw [rereadableAmong, Bool.and_eq_true] at hsound
    rw [toNodes, isOpenIn, Bool.or_eq_true] at hopen
    rw [isOpenAmong, Bool.or_eq_true]
    exact hopen.imp (SourceNode.isOpen_toNode node h.1 hsound.1)
      (isOpenAmong_of_toNodes rest h.2 hsound.2)

end

mutual

private theorem SourceNode.legible_toNode : ∀ node : SourceNode,
    node.Throughout SourceNode.IsRead → node.Throughout SourceNode.HasFewAttributes →
      node.OpenLast → node.rereadable = true → node.toNode.Legible
  | .element name attributes children, h, hfew, hlast, hsound => by
    obtain ⟨⟨hstart, -, -⟩, hchildren⟩ := h
    obtain ⟨hothers, hfew⟩ := hfew
    rw [SourceNode.toNode, Node.Legible]
    refine ⟨hstart.isLegibleStart, hasFewOthers_decodeAttributes hothers, fun hvoid => ?_⟩
    rw [SourceNode.rereadable, hvoid, Bool.false_or, Bool.and_eq_true] at hsound
    obtain ⟨hempty, hinside⟩ := hsound
    have hnone : opensNothing (String.ofList name).toLower.toList = true → children = [] := by
      intro hopens
      simpa [hopens] using hempty
    by_cases hraw : isRawTextTag (String.ofList name).toLower = true
    · rw [if_pos hraw] at hinside ⊢
      refine ⟨fun hopens => by rw [hnone hopens]; rfl, fun hopen => ?_,
        fun _ => ⟨_, rfl, isLegibleBody_sourceOf hchildren hfew hinside⟩, fun hnot => ?_⟩
      · rw [isOpenIn_rawText] at hopen
        cases hopen
      · rw [hraw] at hnot
        cases hnot
    · rw [if_neg hraw, Bool.and_eq_true] at hinside
      rw [if_neg hraw]
      refine ⟨fun hopens => by rw [hnone hopens]; rfl, fun hopen => ?_,
        fun htag => absurd htag hraw,
        fun _ => legibleNodes_toNodes children hchildren hfew hlast hinside.1⟩
      simpa [hopen] using hinside.2
  | .text content, _, _, _, _ => by
    rw [SourceNode.toNode]
    trivial
  | .comment source, h, _, _, hsound => by
    rw [SourceNode.rereadable] at hsound
    exact (legible_toNode_comment h hsound).1

/-- What is read from an HTML text with few attributes is legible, if the text has none of the
oddities. -/
theorem legibleNodes_toNodes : ∀ nodes : List SourceNode,
    ThroughoutAll SourceNode.IsRead nodes → ThroughoutAll SourceNode.HasFewAttributes nodes →
      OpenLastAmong nodes → rereadableAmong nodes = true → LegibleNodes (toNodes nodes)
  | [], _, _, _, _ => by
    rw [toNodes]
    trivial
  | node :: rest, h, hfew, hlast, hsound => by
    rw [rereadableAmong, Bool.and_eq_true] at hsound
    obtain ⟨hnodeLast, hrestNil, hrestLast⟩ := hlast
    refine ⟨SourceNode.legible_toNode node h.1 hfew.1 hnodeLast hsound.1, fun hopen => ?_,
      legibleNodes_toNodes rest h.2 hfew.2 hrestLast hsound.2⟩
    rw [hrestNil (SourceNode.isOpen_toNode node h.1 hsound.1 hopen)]
    rfl

end

mutual

private theorem SourceNode.arranged_toNode : ∀ node : SourceNode,
    node.Throughout SourceNode.IsRead → node.toNode.arranged = node.toNode
  | .element name attributes children, h => by
    obtain ⟨⟨-, harranged, -⟩, hchildren⟩ := h
    have hinside := arrangedNodes_toNodes children hchildren
    rw [SourceNode.toNode, Node.arranged, arranged_decodeAttributes harranged]
    split
    · rw [arrangedNodes_rawText]
    · rw [hinside]
  | .text content, _ => by rw [SourceNode.toNode, Node.arranged]
  | .comment source, _ => by rw [SourceNode.toNode, Node.arranged]

/-- Attributes that are read from an HTML text are arranged. -/
theorem arrangedNodes_toNodes : ∀ nodes : List SourceNode,
    ThroughoutAll SourceNode.IsRead nodes → arrangedNodes (toNodes nodes) = toNodes nodes
  | [], _ => by
    rw [toNodes]
    rfl
  | node :: rest, h => by
    rw [toNodes, arrangedNodes, SourceNode.arranged_toNode node h.1,
      arrangedNodes_toNodes rest h.2]

end

end Html

end IconMarkup
