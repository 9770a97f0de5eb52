import IconMarkup.Html.Document
import IconMarkup.Proofs.Html.Tokens

/-!
# Reading written documents

`agrees_ofHtml_render`: a canonical document is read back from its markup, up to the order of
attributes within an element. The markup is read in stages, each with a law about canonical nodes:

* no document type declaration is taken off (`splitDoctype_markupOf`);
* the tokens are those that the nodes stand for, whatever follows (`tokens_markupOf`);
* the tree of the tokens is the one that the nodes stand for, whatever is open (`nest_tokensOf`);
* decoding that tree gives the nodes, with their attributes arranged (`toNodes_sourceNodesOf`).
-/

namespace IconMarkup

open Html

/-! ### The tree of the tokens -/

mutual

/-- A node of an HTML text that a node of a document is read as. -/
def Node.sourceNode : Node → SourceNode
  | .element tag attributes children =>
    .element tag.toList (arrange (attributes.toList.map sourceEntry)) (sourceNodesOf children)
  | .text content => .text (Text.escapeText content.toList)
  | .raw content => .text content.toList
  | .comment content => .comment (sourceComment content.toList)

/-- The nodes of an HTML text that nodes of a document are read as. -/
def sourceNodesOf : List Node → List SourceNode
  | [] => []
  | node :: rest => node.sourceNode :: sourceNodesOf rest

end

mutual

private theorem Node.nest_tokens :
    ∀ (node : Node) (opened : List OpenElement) (inside : List SourceNode) (rest : List Token),
      node.Canonical →
        nest opened inside (node.tokens ++ rest) = nest opened (node.sourceNode :: inside) rest
  | .element tag attributes children, opened, inside, rest, h => by
    rw [Node.Canonical] at h
    obtain ⟨hstart, hvoid, -, hchildren⟩ := h
    rw [Node.tokens, Node.sourceNode]
    by_cases hv : isVoidTag tag = true
    · rw [if_pos hv, List.cons_append, List.nil_append, nest, hstart.void, hv, hvoid hv,
        sourceNodesOf]
      rfl
    · rw [Bool.not_eq_true] at hv
      rw [hv, List.cons_append, nest, hstart.void, hv, if_neg (by simp), if_neg (by simp),
        List.append_assoc, nest_tokensOf children _ _ _ hchildren, List.cons_append, nest,
        if_pos rfl]
      simp
  | .text content, opened, inside, rest, _ => by
    rw [Node.tokens, Node.sourceNode, List.cons_append, nest]
    rfl
  | .raw content, opened, inside, rest, _ => by
    rw [Node.tokens, Node.sourceNode, List.cons_append, nest]
    rfl
  | .comment content, opened, inside, rest, _ => by
    rw [Node.tokens, Node.sourceNode, List.cons_append, nest]
    rfl

/-- The tokens of canonical nodes are put together to their tree, whatever is open and whatever
follows. -/
theorem nest_tokensOf :
    ∀ (nodes : List Node) (opened : List OpenElement) (inside : List SourceNode)
      (rest : List Token), CanonicalNodes nodes →
        nest opened inside (tokensOf nodes ++ rest) =
          nest opened ((sourceNodesOf nodes).reverse ++ inside) rest
  | [], opened, inside, rest, _ => by
    rw [tokensOf, sourceNodesOf]
    rfl
  | node :: others, opened, inside, rest, h => by
    rw [CanonicalNodes] at h
    rw [tokensOf, sourceNodesOf, List.append_assoc, Node.nest_tokens node _ _ _ h.1,
      nest_tokensOf others _ _ _ h.2, List.reverse_cons, List.append_assoc]
    rfl

end

/-- The tree of canonical markup is the one that the nodes stand for. -/
theorem ofText_markupOf {nodes : List Node} (h : CanonicalNodes nodes) (hapart : TextsApart nodes) :
    SourceNode.ofText (markupOf nodes) = sourceNodesOf nodes := by
  have htokens := tokens_markupOf nodes [] h hapart (by simp)
  rw [List.append_nil] at htokens
  rw [SourceNode.ofText, htokens, nest_tokensOf nodes [] [] _ h, Html.tokens, nest, closeAll]
  simp

/-! ### Decoding -/

namespace Html

/-- No plain character is an upper-case letter. -/
theorem toLower_of_isPlainChar {c : Char} (h : isPlainChar c = true) : c.toLower = c := by
  refine dif_neg fun hupper => ?_
  have hlow : 65 ≤ c.val.toNat := UInt32.le_iff_toNat_le.mp hupper.1
  have hhigh : c.val.toNat ≤ 90 := UInt32.le_iff_toNat_le.mp hupper.2
  have hlower : c.isLower = (decide (c.val ≥ 'a'.val) && decide (c.val ≤ 'z'.val)) := rfl
  simp only [isPlainChar, hlower, Char.isDigit, Bool.or_eq_true, Bool.and_eq_true,
    decide_eq_true_eq, beq_iff_eq, ge_iff_le, UInt32.le_iff_toNat_le] at h
  rcases h with (⟨h, -⟩ | ⟨-, h⟩) | rfl
  · exact absurd (hhigh.trans_lt' (lt_of_lt_of_le (by decide : 90 < 'a'.val.toNat) h)) (lt_irrefl _)
  · exact absurd (hlow.trans h) (by decide)
  · exact absurd hlow (by decide)

/-- A name is put in lower case one character at a time. -/
theorem toList_toLower (name : String) : name.toLower.toList = name.toList.map Char.toLower :=
  String.toList_map ..

/-- A plain name is in lower case. -/
theorem toLower_of_isPlainName {name : String} (h : isPlainName name = true) :
    name.toLower = name := by
  obtain ⟨first, rest, hname, -, hplain⟩ := exists_of_isPlainName h
  rw [← String.toList_inj, toList_toLower, hname]
  exact List.map_congr_left (fun c hc => toLower_of_isPlainChar (hplain c hc)) |>.trans
    (List.map_id _)

/-- A name that is given once has at most one entry. -/
private theorem lastValue_map_sourceEntry {entries : List (String × String)}
    (h : (entries.map (·.1)).Nodup) (name : String) :
    lastValue name (entries.map sourceEntry) = (entries.filter (·.1 = name)).map sourceEntry := by
  have hfilter : (entries.map sourceEntry).filter (·.1 = name.toList) =
      (entries.filter (·.1 = name)).map sourceEntry := by
    rw [List.filter_map]
    congr 1
    refine List.filter_congr fun entry _ => ?_
    simp [sourceEntry, String.toList_inj]
  have hnodup : ((entries.filter (·.1 = name)).map (·.1)).Nodup := h.sublist
    (List.filter_sublist.map _)
  have hname : ∀ entry ∈ entries.filter (·.1 = name), entry.1 = name := fun entry hentry =>
    of_decide_eq_true (List.mem_filter.mp hentry).2
  rw [lastValue, hfilter]
  generalize entries.filter (·.1 = name) = named at hnodup hname
  rcases named with _ | ⟨first, _ | ⟨second, others⟩⟩
  · rfl
  · rfl
  · have hfirst := hname first (by simp)
    have hsecond := hname second (by simp)
    simp [hfirst, hsecond] at hnodup

/-- The attributes of a start tag are decoded to those that were written, arranged. -/
theorem decodeAttributes_arrange {attributes : Attributes}
    (h : (attributes.toList.map (·.1)).Nodup) :
    decodeAttributes (arrange (attributes.toList.map sourceEntry)) = attributes.arranged := by
  have harrange : arrange (attributes.toList.map sourceEntry) =
      attributes.arranged.toList.map sourceEntry := by
    have hothers : (attributes.toList.map sourceEntry).filter
        (fun entry => entry.1 ≠ "id".toList ∧ entry.1 ≠ "class".toList) =
          (attributes.toList.filter fun entry => entry.1 ≠ "id" ∧ entry.1 ≠ "class").map
            sourceEntry := by
      rw [List.filter_map]
      congr 1
      refine List.filter_congr fun entry _ => ?_
      simp only [Function.comp, sourceEntry, ne_eq, String.toList_inj]
    rw [arrange, lastValue_map_sourceEntry h, lastValue_map_sourceEntry h, hothers,
      ← List.map_append, ← List.map_append]
    rfl
  have hdecode : (fun entry : SourceAttribute => (String.ofList entry.1,
      String.ofList (Text.unescape (entry.2.getD [])))) ∘ sourceEntry = id := by
    funext entry
    simp [sourceEntry, Text.unescape_escapeAttribute]
  have hnodup : (attributes.arranged.toList.map (·.1)).Nodup :=
    (attributes.perm_arranged.map _).nodup_iff.mp h
  rw [decodeAttributes, harrange, List.map_map, hdecode, List.map_id,
    Attributes.ofList_eq_of_nodup hnodup]
  rfl

theorem commentBody_sourceComment (content : List Char) :
    commentBody (sourceComment content) = content := by
  have hlead : Text.afterLead? "<!--".toList (sourceComment content) =
      some (content ++ "-->".toList) := Text.afterLead?_eq_some_iff.mpr rfl
  have hend : Text.afterLead? "-->".toList.reverse (content ++ "-->".toList).reverse =
      some content.reverse := Text.afterLead?_eq_some_iff.mpr (List.reverse_append ..)
  rw [commentBody, hlead]
  simp only [hend, List.reverse_reverse]

end Html

mutual

private theorem Node.toNode_sourceNode :
    ∀ node : Node, node.Canonical → node.sourceNode.toNode = node.arranged
  | .element tag attributes children, h => by
    rw [Node.Canonical] at h
    obtain ⟨hstart, -, -, hchildren⟩ := h
    rw [Node.sourceNode, SourceNode.toNode, String.ofList_toList,
      toLower_of_isPlainName hstart.plainTag, hstart.notRaw,
      decodeAttributes_arrange hstart.distinctNames, toNodes_sourceNodesOf children hchildren,
      Node.arranged]
    rfl
  | .text content, _ => by
    rw [Node.sourceNode, SourceNode.toNode, Text.unescape_escapeText, String.ofList_toList,
      Node.arranged]
  | .raw content, h => by
    rw [Node.Canonical] at h
    exact h.elim
  | .comment content, _ => by
    rw [Node.sourceNode, SourceNode.toNode, commentBody_sourceComment, String.ofList_toList,
      Node.arranged]

/-- Decoding the tree of canonical nodes gives the nodes with their attributes arranged. -/
theorem toNodes_sourceNodesOf :
    ∀ nodes : List Node, CanonicalNodes nodes →
      toNodes (sourceNodesOf nodes) = arrangedNodes nodes
  | [], _ => by rw [sourceNodesOf, toNodes, arrangedNodes]
  | node :: rest, h => by
    rw [CanonicalNodes] at h
    rw [sourceNodesOf, toNodes, arrangedNodes, Node.toNode_sourceNode node h.1,
      toNodes_sourceNodesOf rest h.2]

end

/-! ### No document type declaration -/

namespace Html

/-- What becomes something other than a lower-case letter in lower case was that already. -/
theorem eq_of_toLower_eq {c d : Char} (h : c.toLower = d) (hd : d.isLower = false) : c = d := by
  unfold Char.toLower at h
  split at h
  · -- an upper-case letter becomes a lower-case one
    rename_i hupper
    have hlow : 65 ≤ c.val.toNat := UInt32.le_iff_toNat_le.mp hupper.1
    have hhigh : c.val.toNat ≤ 90 := UInt32.le_iff_toNat_le.mp hupper.2
    have hval : (c.val + 32).toNat = d.val.toNat := congrArg (·.val.toNat) h
    rw [UInt32.toNat_add] at hval
    simp only [UInt32.reduceToNat] at hval
    have hrange : d.isLower = (decide (d.val ≥ 'a'.val) && decide (d.val ≤ 'z'.val)) := rfl
    have hlower : d.isLower = true := by
      simp only [hrange, Bool.and_eq_true, decide_eq_true_eq, ge_iff_le, UInt32.le_iff_toNat_le]
      have ha : 'a'.val.toNat = 97 := by decide
      have hz : 'z'.val.toNat = 122 := by decide
      omega
    rw [hd] at hlower
    cases hlower
  · exact h

/-- Whether a text begins like a document type declaration. -/
def BeginsDoctype (cs : List Char) : Prop :=
  isWordInAnyCase doctypeLead (cs.take doctypeLead.length) = true

theorem BeginsDoctype.shape {cs : List Char} (h : BeginsDoctype cs) :
    ∃ second third rest, cs = '<' :: second :: third :: rest ∧ second.toLower = '!' ∧
      third.toLower = 'd' := by
  have hword : (cs.take 9).map Char.toLower = ['<', '!', 'd', 'o', 'c', 't', 'y', 'p', 'e'] :=
    eq_of_beq h
  match cs with
  | [] => cases hword
  | [_] => simp at hword
  | [_, _] => simp at hword
  | first :: second :: third :: rest =>
    simp only [List.take_succ_cons, List.map_cons, List.cons.injEq] at hword
    obtain ⟨hfirst, hsecond, hthird, -⟩ := hword
    exact ⟨second, third, rest, by rw [eq_of_toLower_eq hfirst (by decide)], hsecond, hthird⟩

end Html

/-- Canonical markup other than text begins like an element or a comment. -/
private theorem not_beginsDoctype_markup {node : Node} (h : node.Canonical)
    (htext : node.isText = false) (more : List Char) : ¬ BeginsDoctype (node.markup ++ more) := by
  intro hdoctype
  obtain ⟨second, third, rest, hshape, hsecond, hthird⟩ := hdoctype.shape
  cases node with
  | element tag attributes children =>
    rw [Node.Canonical] at h
    obtain ⟨first, others, hname, -, hplain⟩ := exists_of_isPlainName h.1.plainTag
    have hsame : second = first := by
      rw [Node.markup, markupElement, if_neg (ne_fragmentTag h.1), markupStart, hname] at hshape
      split at hshape <;> simp at hshape <;> exact hshape.1.symm
    -- a plain character is its own lower-case form, and `!` is none
    rw [hsame, toLower_of_isPlainChar (hplain first (List.mem_cons_self ..))] at hsecond
    rw [hsecond] at hplain
    exact absurd (hplain '!' (List.mem_cons_self ..)) (by decide)
  | text content => cases htext
  | raw content => cases htext
  | comment content =>
    have hsame : third = '-' := by
      simp [Node.markup] at hshape
      exact hshape.2.1.symm
    rw [hsame] at hthird
    exact absurd hthird (by decide)

private theorem not_beginsDoctype_of_tag {nodes : List Node} (h : CanonicalNodes nodes)
    (hhead : ∀ node ∈ nodes.head?, node.isText = false) :
    ¬ BeginsDoctype (Text.trimStart (markupOf nodes)) := by
  cases nodes with
  | nil =>
    intro hdoctype
    obtain ⟨second, third, rest, hshape, -⟩ := hdoctype.shape
    cases hshape
  | cons node rest =>
    rw [CanonicalNodes] at h
    have htag := head?_markup h.1 (hhead node rfl) (markupOf rest)
    have htrim : Text.trimStart (node.markup ++ markupOf rest) = node.markup ++ markupOf rest := by
      obtain ⟨more, hmore⟩ := List.head?_eq_some_iff.mp htag
      rw [hmore, Text.trimStart, List.dropWhile_cons_of_neg (by decide)]
    rw [markupOf, htrim]
    exact not_beginsDoctype_markup h.1 (hhead node rfl) _

/-- Text in front makes no difference: it is white space or begins with another character. -/
theorem not_beginsDoctype_of_text (content : List Char) {rest : List Char}
    (h : ¬ BeginsDoctype (Text.trimStart rest)) :
    ¬ BeginsDoctype (Text.trimStart (Text.escapeText content ++ rest)) := by
  rw [Text.trimStart, List.dropWhile_append]
  split
  · exact h
  · rename_i hblank
    intro hdoctype
    obtain ⟨second, third, more, hshape, -⟩ := hdoctype.shape
    rcases htrim : (Text.escapeText content).dropWhile Text.isBlank with _ | ⟨c, cs⟩
    · rw [htrim] at hblank
      exact hblank rfl
    -- what is left of the text begins with a character that stands in it, and so not with `<`
    · rw [htrim, List.cons_append, List.cons.injEq] at hshape
      have hmem : c ∈ Text.escapeText content :=
        (List.dropWhile_sublist _).subset (htrim ▸ List.mem_cons_self ..)
      rw [hshape.1] at hmem
      exact Text.lt_not_mem_escapeText content hmem

/-- Canonical markup has no document type declaration, not even after white space. -/
theorem splitDoctype_markupOf {nodes : List Node} (h : CanonicalNodes nodes)
    (hapart : TextsApart nodes) : splitDoctype (markupOf nodes) = ([], markupOf nodes) := by
  have hdoctype : ¬ BeginsDoctype (Text.trimStart (markupOf nodes)) := by
    rcases nodes with _ | ⟨node, rest⟩
    · exact not_beginsDoctype_of_tag h (by simp)
    rcases htext : node.isText with _ | _
    · exact not_beginsDoctype_of_tag h (by simp [htext])
    -- text in front is followed by a tag or by nothing
    rw [CanonicalNodes] at h
    have hrest : ∀ next ∈ rest.head?, next.isText = false := by
      intro next hnext
      rw [Bool.eq_false_iff]
      exact fun hboth => (List.isChain_cons.mp hapart).1 next hnext ⟨htext, hboth⟩
    cases node with
    | element tag attributes children => cases htext
    | text content => exact not_beginsDoctype_of_text _ (not_beginsDoctype_of_tag h.2 hrest)
    | raw content =>
      rw [Node.Canonical] at h
      exact h.1.elim
    | comment content => cases htext
  rw [splitDoctype]
  exact if_neg hdoctype

/-- The document read from the markup of a canonical document is the document, with the attributes
of each element arranged. -/
theorem ofHtml_render_eq_arranged {document : Document} (h : document.Canonical) :
    Document.ofHtml document.render = .ofNodes (arrangedNodes document.root.children) := by
  have hmarkup : document.render.toList = markupOf document.root.children := by
    rw [Document.render, Element.render, Node.render, String.toList_ofList, Element.toNode,
      Node.markup, markupElement, if_pos h.fragment]
  rw [Document.ofHtml, hmarkup, splitDoctype_markupOf h.nodes h.apart]
  simp only [rawText, List.isEmpty_nil, if_true, List.nil_append]
  rw [ofText_markupOf h.nodes h.apart, toNodes_sourceNodesOf _ h.nodes]

/-- A canonical document is read back from its markup, up to the order of attributes. -/
theorem agrees_ofHtml_render {document : Document} (h : document.Canonical) :
    document.Agrees (Document.ofHtml document.render) := by
  rw [ofHtml_render_eq_arranged h, Document.Agrees, Document.ofNodes, Element.toNode,
    Element.toNode, h.fragment, h.bare]
  exact .element fragmentTag (.refl _) (nodesAgree_arrangedNodes _)

end IconMarkup
