import IconMarkup.Proofs.Html.Rereadable
import IconMarkup.Proofs.Icon.Processing

/-!
# Scripts and style sheets that are kept

The reader splits the body of a script or style sheet into tags and texts like any other one, and
what it has read is written back as the one text of the element.  So a page that is a script or
style sheet is kept exactly if the body is read alone: as what stands in the one element, of which
the same characters are written back.

A body without tags is kept, and one with a bracket that is not closed is not: everything that is
written back from what was read has its brackets closed (`closesTags_sourceOf`), while the bracket
of a comparison such as `a<b` takes the end of the script for a part of a tag.
-/

namespace IconMarkup

namespace Html

/-! ### The first node -/

/-- The nodes at the top level that are complete, in reverse order. -/
def outermost : List OpenElement → List SourceNode → List SourceNode
  | [], inside => inside
  | innermost :: outer, _ => outermost outer innermost.before

variable {opened outer : List OpenElement} {inside : List SourceNode} {first : SourceNode}

private theorem getLast?_outermost_cons (node : SourceNode)
    (h : (outermost opened inside).getLast? = some first) :
    (outermost opened (node :: inside)).getLast? = some first := by
  cases opened with
  | nil =>
    rw [outermost] at h ⊢
    rw [List.getLast?_cons, h]
    rfl
  | cons innermost outer => exact h

private theorem head?_closeAll (h : (outermost opened inside).getLast? = some first) :
    (closeAll opened inside).head? = some first := by
  induction opened generalizing inside with
  | nil => rwa [closeAll, List.head?_reverse]
  | cons innermost outer ih => exact ih (getLast?_outermost_cons _ h)

/-- The first node at the top level stays the first one. -/
private theorem head?_nest {tokens : List Token}
    (h : (outermost opened inside).getLast? = some first) :
    (nest opened inside tokens).head? = some first := by
  fun_induction nest opened inside tokens with
  | case1 opened inside => exact head?_closeAll h
  | case2 opened inside content rest ih => exact ih (getLast?_outermost_cons _ h)
  | case3 opened inside source rest ih => exact ih (getLast?_outermost_cons _ h)
  | case4 opened inside name attributes selfClosing rest hleaf ih =>
    exact ih (getLast?_outermost_cons _ h)
  | case5 opened inside name attributes selfClosing rest hopens ih => exact ih h
  | case6 inside name rest ih => exact ih h
  | case7 innermost outer inside rest ih => exact ih (getLast?_outermost_cons _ h)
  | case8 innermost outer inside name rest hother ih => exact ih h

private theorem exists_closeAll_concat (ups : List OpenElement) (bottom : OpenElement)
    (inside : List SourceNode) (h : bottom.before = []) :
    ∃ children, closeAll (ups ++ [bottom]) inside =
      [.element bottom.name bottom.attributes children] := by
  induction ups generalizing inside with
  | nil =>
    rw [List.nil_append, closeAll, closeAll, h]
    exact ⟨inside.reverse, rfl⟩
  | cons innermost outer ih => exact ih _

/-- An element that is open before all other nodes is the first node at the top level. -/
private theorem exists_head?_nest {bottom : OpenElement} (h : bottom.before = [])
    (tokens : List Token) (ups : List OpenElement) (inside : List SourceNode) :
    ∃ children, (nest (ups ++ [bottom]) inside tokens).head? =
      some (.element bottom.name bottom.attributes children) := by
  induction tokens generalizing ups inside with
  | nil =>
    obtain ⟨children, hclose⟩ := exists_closeAll_concat ups bottom inside h
    exact ⟨children, by rw [nest, hclose, List.head?_cons]⟩
  | cons token rest ih =>
    cases token with
    | text content =>
      rw [nest]
      exact ih ups _
    | comment source =>
      rw [nest]
      exact ih ups _
    | start name attributes selfClosing =>
      rw [nest]
      split
      · exact ih ups _
      · exact ih (_ :: ups) []
    | finish name =>
      cases ups with
      | nil =>
        rw [List.nil_append, nest]
        split
        · -- the element is closed, and stays the first one
          exact ⟨inside.reverse, head?_nest (by rw [outermost, h, List.getLast?_singleton])⟩
        · exact ih [] inside
      | cons innermost outer =>
        rw [List.cons_append, nest]
        split
        · exact ih outer _
        · exact ih (innermost :: outer) inside

/-! ### Bodies between tags -/

/-- A body between the tags of an element. -/
def tagged (name body : List Char) : List Char :=
  startTag name [] ++ body ++ endTag name

/-- Whether a body between tags is read as one element, in which it is written back as it is. -/
def ReadsAlone (name body : List Char) : Prop :=
  ∃ nodes, SourceNode.ofText (tagged name body) = [.element name [] nodes] ∧ sourceOf nodes = body

section Tagged

variable {name body : List Char}

/-- The element is the first node, with something of the body inside. -/
private theorem exists_ofText_tagged (hname : IsReadableStart name [])
    (hopens : opensNothing name = false) (body : List Char) :
    ∃ nodes rest, SourceNode.ofText (tagged name body) = .element name [] nodes :: rest := by
  have hbefore : (⟨name, [], []⟩ : OpenElement).before = [] := rfl
  obtain ⟨children, hhead⟩ := exists_head?_nest hbefore (tokens (body ++ endTag name)) [] []
  obtain ⟨rest, hrest⟩ := List.head?_eq_some_iff.mp hhead
  refine ⟨children, rest, ?_⟩
  rw [SourceNode.ofText, tagged, List.append_assoc, tokens_startTag hname, nest, hopens,
    Bool.or_false, if_neg (by simp)]
  exact hrest

/-- A body that is written back as it is by itself is so between tags. -/
private theorem IsStableBody.readsAlone (h : IsStableBody body) (hname : IsReadableStart name [])
    (hopens : opensNothing name = false) : ReadsAlone name body := by
  obtain ⟨nodes, hreads, hsource⟩ := h
  exact ⟨nodes, (hreads.element hname hopens (by simp)).ofText, hsource⟩

end Tagged

/-! ### Brackets -/

/-- Whether a closing bracket follows on each opening one. -/
def ClosesTags (cs : List Char) : Prop :=
  ∀ before after, cs = before ++ '<' :: after → '>' ∈ after

private theorem closesTags_of_lt_notMem {cs : List Char} (h : '<' ∉ cs) : ClosesTags cs := by
  rintro before after rfl
  simp at h

private theorem closesTags_of_getLast? {cs : List Char} (h : cs.getLast? = some '>') :
    ClosesTags cs := by
  rintro before after rfl
  rcases List.eq_nil_or_concat after with rfl | ⟨others, last, rfl⟩
  · rw [List.getLast?_concat] at h
    cases h
  · have hlast : (before ++ '<' :: others ++ [last]).getLast? = some '>' := by simpa using h
    rw [List.getLast?_concat, Option.some_inj] at hlast
    simp [hlast]

private theorem ClosesTags.append {first second : List Char} (h : ClosesTags first)
    (h' : ClosesTags second) : ClosesTags (first ++ second) := by
  intro before after heq
  rcases List.append_eq_append_iff.mp heq with ⟨between, rfl, hsecond⟩ | ⟨between, rfl, hbetween⟩
  · exact h' between after hsecond
  · rcases List.cons_eq_append_iff.mp hbetween with ⟨rfl, hsecond⟩ | ⟨others, rfl, rfl⟩
    · exact h' [] after hsecond
    · exact List.mem_append_left _ (h before others rfl)

/-- What is written back from nodes has no bracket that is not closed. -/
theorem closesTags_sourceOf {nodes : List SourceNode}
    (h : ThroughoutAll SourceNode.IsRead nodes) : ClosesTags (sourceOf nodes) := by
  induction nodes with
  | nil => exact closesTags_of_lt_notMem (by simp [sourceOf])
  | cons node rest ih =>
    refine ClosesTags.append ?_ (ih h.2)
    cases node with
    | element name attributes children =>
      refine closesTags_of_getLast? ?_
      rw [SourceNode.source]
      split <;> exact List.getLast?_concat
    | text content =>
      have htext : IsReadText content := h.1
      exact closesTags_of_lt_notMem htext.2
    | comment source =>
      have hcomment : IsReadComment source := h.1
      rcases hcomment with rfl | ⟨first, body, rfl, -, hread⟩
      · exact closesTags_of_lt_notMem (by simp [SourceNode.source])
      · obtain ⟨before, rfl⟩ := suffix_of_readComment? hread
        refine closesTags_of_getLast? ?_
        rw [SourceNode.source, ← List.cons_append, ← List.cons_append, List.getLast?_append]
        rfl

/-! ### End tags -/

/-- An end tag stands where it stood if it stands nowhere before. -/
private theorem eq_of_append_endTag {name body inside more : List Char} (hname : '<' ∉ name)
    (hbody : ¬ ('<' :: '/' :: name) <:+: body)
    (h : inside ++ (endTag name ++ more) = body ++ endTag name) : inside = body ∧ more = [] := by
  rcases List.append_eq_append_iff.mp h with ⟨between, rfl, hend⟩ | ⟨between, rfl, hend⟩
  · rcases between with _ | ⟨c, between⟩
    · rw [List.nil_append] at hend
      exact ⟨(List.append_nil _).symm,
        List.append_cancel_left (hend.trans (List.append_nil _).symm)⟩
    -- otherwise an end tag begins in the body, and so all of its name stands there
    exfalso
    rw [endTag, List.append_assoc] at hend
    rcases List.append_eq_append_iff.mp hend with ⟨rest, hbetween, -⟩ | ⟨rest, hstart, hrest⟩
    · exact hbody ⟨inside, rest, by rw [hbetween, List.append_assoc]⟩
    · -- within the name of an end tag no other one begins
      rcases rest with _ | ⟨d, rest⟩
      · cases hrest
      · obtain rfl := (List.cons.inj hrest).1
        have hmem : '<' ∈ '/' :: name := by
          rw [(List.cons.inj hstart).2]
          simp
        exact hname (by simpa using hmem)
  · have hlength := congrArg List.length hend
    rw [List.length_append, List.length_append] at hlength
    have hbetween : between = [] := List.eq_nil_of_length_eq_zero (by omega)
    have hmore : more = [] := List.eq_nil_of_length_eq_zero (by omega)
    exact ⟨by rw [hbetween, List.append_nil], hmore⟩

end Html

open Html Icon Config Icon.Cut

/-! ### Markup of what follows -/

private theorem unescape_ne_nil {cs : List Char} (h : cs ≠ []) : Text.unescape cs ≠ [] := by
  rcases cs with _ | ⟨c, cs⟩
  · exact absurd rfl h
  · rw [Text.unescape]
    split
    · split <;> simp
    · simp

/-- A text that is replaced leaves some markup, because an icon stands in it. -/
private theorem markupOf_replace?_ne_nil {classes : Classes} {text : String} {nodes : List Node}
    (h : replace? classes text = some nodes) : markupOf nodes ≠ [] := by
  rw [replace?_eq, Option.ite_none_left_eq_some, Option.some.injEq] at h
  obtain ⟨hmarks, rfl⟩ := h
  rcases hcut : (cut text.toList).marks with _ | ⟨mark, marks⟩
  · exact absurd hcut hmarks
  · rw [Cut.nodes, hcut, markupOf_append, List.flatMap_cons, markupOf_append, markNodes, markupOf]
    simp [element, Element.leaf, Element.toNode, Node.markup, markupElement, fragmentTag, isVoidTag,
      markupStart]

/-- Nodes that are read leave some markup. -/
private theorem markupOf_rewrite_ne_nil {skip : List String} {classes : Classes} {node : SourceNode}
    (h : node.Throughout SourceNode.IsRead) :
    markupOf (node.toNode.rewrite skip (replace? classes)) ≠ [] := by
  cases node with
  | element name attributes children =>
    have hstart := h.1.1.isLegibleStart
    rw [SourceNode.toNode, Node.rewrite]
    split <;>
    · rw [markupOf]
      obtain ⟨after, hafter⟩ := hstart.exists_markup_eq _
      rw [hafter]
      simp
  | text content =>
    have htext : IsReadText content := h
    rw [SourceNode.toNode, Node.rewrite]
    rcases hreplace : replace? classes (String.ofList (Text.unescape content)) with _ | nodes
    · have hescape := Text.escapeText_ne_nil (unescape_ne_nil htext.1)
      simpa [markupOf, Node.markup] using hescape
    · exact markupOf_replace?_ne_nil hreplace
  | comment source =>
    rw [SourceNode.toNode, Node.rewrite, markupOf, Node.markup]
    simp

/-- Nothing is left only where nothing was read. -/
private theorem markupOf_rewriteNodes_eq_nil_iff {skip : List String} {classes : Classes}
    {nodes : List SourceNode} (h : ThroughoutAll SourceNode.IsRead nodes) :
    markupOf (rewriteNodes skip (replace? classes) (toNodes nodes)) = [] ↔ nodes = [] := by
  cases nodes with
  | nil =>
    rw [toNodes, rewriteNodes]
    exact iff_of_true rfl rfl
  | cons node rest =>
    rw [toNodes, rewriteNodes, markupOf_append, List.append_eq_nil_iff]
    exact iff_of_false (fun hnil => markupOf_rewrite_ne_nil h.1 hnil.1) (by simp)

/-! ### Scripts and style sheets -/

section RawText

variable {tag : String} (htag : tag = "script" ∨ tag = "style")

include htag

private theorem isReadableStart_rawTextTag : IsReadableStart tag.toList [] where
  name := by
    rcases htag with rfl | rfl <;> exact ⟨List.all_eq_true.mp (by decide), by decide⟩
  readable := by simp
  values := by simp
  nameless := by simp

private theorem opensNothing_rawTextTag : opensNothing tag.toList = false := by
  rcases htag with rfl | rfl <;> decide

private theorem lt_notMem_rawTextTag : '<' ∉ tag.toList := by
  rcases htag with rfl | rfl <;> decide

/-- A body without an end tag in any case has none in lower case. -/
private theorem not_isInfix_of_toLower {body : List Char}
    (h : ¬ ('<' :: '/' :: tag.toList) <:+: body.map Char.toLower) :
    ¬ ('<' :: '/' :: tag.toList) <:+: body := by
  have hlower : ('<' :: '/' :: tag.toList).map Char.toLower = '<' :: '/' :: tag.toList := by
    rcases htag with rfl | rfl <;> decide
  intro hends
  rw [← hlower] at h
  exact h (hends.map Char.toLower)

private theorem splitDoctype_tagged (body : List Char) :
    splitDoctype (tagged tag.toList body) = ([], tagged tag.toList body) := by
  refine if_neg fun hword => ?_
  obtain ⟨second, third, rest, hshape, hsecond, -⟩ := BeginsDoctype.shape hword
  rcases htag with rfl | rfl <;>
  · obtain rfl := (List.cons.inj (List.cons.inj hshape).2).1
    exact absurd hsecond (by decide)

/-- The document of a script or style sheet: the element comes first, with what was read of its body
written back. -/
private theorem exists_children_tagged (body : List Char) :
    ∃ nodes rest, SourceNode.ofText (tagged tag.toList body) =
        .element tag.toList [] nodes :: rest ∧
      Document.ofHtml (String.ofList (tagged tag.toList body)) =
        .ofNodes (.element tag .empty (rawText (sourceOf nodes)) :: toNodes rest) := by
  obtain ⟨nodes, rest, htext⟩ := exists_ofText_tagged (isReadableStart_rawTextTag htag)
    (opensNothing_rawTextTag htag) body
  refine ⟨nodes, rest, htext, ?_⟩
  have hlower : (String.ofList tag.toList).toLower = tag := by
    rcases htag with rfl | rfl <;> decide +kernel
  have hraw : isRawTextTag tag = true := by
    rcases htag with rfl | rfl <;> decide
  rw [Document.ofHtml, String.toList_ofList, splitDoctype_tagged htag]
  simp only [htext, toNodes, SourceNode.toNode, hlower, hraw, if_true]
  rfl

omit htag in
private theorem rawText_injective : Function.Injective rawText := fun first second h => by
  rw [← markupOf_rawText first, h, markupOf_rawText]

/-- What is written of a script or style sheet with nodes behind it. -/
private theorem markupOf_rewriteNodes_cons (skip : List String) (classes : Classes)
    (content : List Char) (others : List Node) :
    markupOf (rewriteNodes skip (replace? classes)
        (.element tag .empty (rawText content) :: others)) =
      startTag tag.toList [] ++ (content ++ (endTag tag.toList ++
        markupOf (rewriteNodes skip (replace? classes) others))) := by
  have hself : (Node.element tag .empty (rawText content)).rewrite skip (replace? classes) =
      [.element tag .empty (rawText content)] := by
    rw [Node.rewrite, rewriteNodes_rawText]
    exact ite_self _
  have helement : (Node.element tag .empty (rawText content)).markup =
      startTag tag.toList [] ++ content ++ endTag tag.toList := by
    rw [Node.markup, markupOf_rawText]
    rcases htag with rfl | rfl <;> rfl
  rw [rewriteNodes, hself, markupOf_append, markupOf, markupOf, helement]
  simp

/-- Processing a script or style sheet keeps it, in the tree and in the output, exactly if it is
read as one element in which the body is written back as it is. That is so for a body that is
written back as it is by itself, and so for one without tags, and it is not so for one with a
bracket that is not closed. -/
theorem process_tagged_iff {body : List Char}
    (hbody : ¬ ('<' :: '/' :: tag.toList) <:+: body.map Char.toLower) (settings : Settings) :
    let page := String.ofList (tagged tag.toList body)
    ((Document.ofHtml page).root.children = [.element tag .empty (rawText body)] ↔
        ReadsAlone tag.toList body) ∧
      ((process (.ofHtml page) settings).toList = tagged tag.toList body ↔
        ReadsAlone tag.toList body) ∧
      (IsStableBody body → ReadsAlone tag.toList body) ∧
      ('<' ∉ body → ReadsAlone tag.toList body) ∧
      ∀ before after, body = before ++ '<' :: after → '>' ∉ after →
        ¬ ReadsAlone tag.toList body := by
  intro page
  obtain ⟨nodes, rest, htext, hdocument⟩ := exists_children_tagged htag body
  have hread := isRead_ofText (tagged tag.toList body)
  rw [htext] at hread
  have halone : ReadsAlone tag.toList body ↔ sourceOf nodes = body ∧ rest = [] := by
    rw [ReadsAlone, htext]
    constructor
    · rintro ⟨nodes', heq, hsource⟩
      cases heq
      exact ⟨hsource, rfl⟩
    · rintro ⟨hsource, rfl⟩
      exact ⟨nodes, rfl, hsource⟩
  have hstable : IsStableBody body → ReadsAlone tag.toList body := fun h =>
    h.readsAlone (isReadableStart_rawTextTag htag) (opensNothing_rawTextTag htag)
  rw [halone] at hstable
  rw [halone, hdocument]
  refine ⟨⟨fun h => ?_, fun ⟨hsource, hrest⟩ => ?_⟩, ⟨fun h => ?_, fun ⟨hsource, hrest⟩ => ?_⟩,
    hstable, fun hlt => hstable (isStableBody_of_lt_notMem hlt),
    fun before after hshape hopen ⟨hsource, _⟩ => ?_⟩
  · obtain ⟨hfirst, hrest⟩ := List.cons.inj h
    refine ⟨rawText_injective (Node.element.inj hfirst).right.right, ?_⟩
    cases rest with
    | nil => rfl
    | cons node rest => cases hrest
  · rw [hsource, hrest]
    rfl
  · rw [toList_process_ofNodes, markupOf_rewriteNodes_cons htag, tagged, List.append_assoc,
      List.append_cancel_left_eq] at h
    obtain ⟨hsource, hmore⟩ := eq_of_append_endTag (lt_notMem_rawTextTag htag)
      (not_isInfix_of_toLower htag hbody) h
    exact ⟨hsource, (markupOf_rewriteNodes_eq_nil_iff hread.2).mp hmore⟩
  · rw [toList_process_ofNodes, markupOf_rewriteNodes_cons htag, hsource,
      (markupOf_rewriteNodes_eq_nil_iff hread.2).mpr hrest, List.append_nil, tagged,
      List.append_assoc]
  · exact hopen (closesTags_sourceOf hread.1.2 before after (hsource.trans hshape))

end RawText

/-- A comparison in a script takes the end of the script for a part of a tag: the script is written
without the bracket and with another end. -/
theorem not_process_tagged_comparison :
    ¬ ('<' :: '/' :: "script".toList) <:+: "a<b".toList.map Char.toLower ∧
      process (.ofHtml "<script>a<b</script>") {} = "<script>ascript></script>" ∧
      ¬ ∀ (tag : String) (body : List Char) (settings : Settings), tag = "script" ∨ tag = "style" →
        ¬ ('<' :: '/' :: tag.toList) <:+: body.map Char.toLower →
          (process (.ofHtml (String.ofList (tagged tag.toList body))) settings).toList =
            tagged tag.toList body := by
  have hbody : ¬ ('<' :: '/' :: "script".toList) <:+: "a<b".toList.map Char.toLower := by decide
  refine ⟨hbody, by decide +kernel, fun hkept => ?_⟩
  obtain ⟨-, hiff, -, -, hopen⟩ := process_tagged_iff (.inl rfl) hbody {}
  exact hopen ['a'] ['b'] rfl (by decide) (hiff.mp (hkept _ _ {} (.inl rfl) hbody))

end IconMarkup
