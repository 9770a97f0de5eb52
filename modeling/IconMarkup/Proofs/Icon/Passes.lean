import IconMarkup.Proofs.Icon.Cut
import IconMarkup.Proofs.Tree.Rewriting

/-!
# Icon passes in a row

`replaceIn_replaceIn`: passes over a document that put icons in the place of shortcodes commute
whatever each of them skips, and a pass absorbs an earlier one that skips more. The icons have no
text inside and the texts between them are plain (`settles_replace?`), so that a pass finds nothing
to do where another one has been.
-/

namespace IconMarkup.Icon

open Cut

private theorem offeredTexts_textNodes (skip : List String) (cs : List Char) :
    offeredTexts skip (textNodes cs) = if cs = [] then [] else [String.ofList cs] := by
  rw [textNodes]
  split <;> simp [offeredTexts, Node.offeredTexts]

/-- An icon has no running text, whether its tag is skipped or not. -/
private theorem offeredTexts_markNodes (skip : List String) (classes : Classes) (mark : Mark) :
    offeredTexts skip (markNodes classes mark) = offeredTexts skip (textNodes mark.after) := by
  simp [markNodes, element, Element.leaf, Element.toNode, offeredTexts, Node.offeredTexts]

/-- The texts offered in the replacement of a text are the nonempty pieces between shortcodes. -/
private theorem offeredTexts_nodes (skip : List String) (classes : Classes) (pieces : Cut) :
    offeredTexts skip (pieces.nodes classes) =
      offeredTexts skip (textNodes pieces.lead) ++
        pieces.marks.flatMap fun mark => offeredTexts skip (textNodes mark.after) := by
  rw [nodes, offeredTexts_append]
  congr 1
  induction pieces.marks with
  | nil => rfl
  | cons mark marks ih =>
    rw [List.flatMap_cons, List.flatMap_cons, offeredTexts_append, offeredTexts_markNodes, ih]

/-- Nothing is left to replace in a replacement. -/
theorem settles_replace? (classes : Classes) : Settles (replace? classes) := by
  intro text nodes h skip offered hoffered
  have hplain : ∀ cs, IsPlain cs → offered ∈ offeredTexts skip (textNodes cs) →
      replace? classes offered = none := by
    intro cs hcs hmem
    rw [offeredTexts_textNodes] at hmem
    split at hmem
    · simp at hmem
    · rw [List.mem_singleton.mp hmem, replace?_eq_none_iff, String.toList_ofList]
      exact hcs
  rw [replace?_eq, Option.ite_none_left_eq_some, Option.some.injEq] at h
  rw [← h.2, offeredTexts_nodes, List.mem_append, List.mem_flatMap] at hoffered
  -- what is offered is the text before the first shortcode, or the text after one
  rcases hoffered with hlead | ⟨mark, hmark, hafter⟩
  · exact hplain _ (isPlain_lead _) hlead
  · exact hplain _ (isPlain_after hmark) hafter

theorem replaceIn_eq (classes : Classes) (skip : List String) (document : Document) :
    replaceIn classes skip document =
      (⟨{ document.root with
            children := rewriteNodes skip (replace? classes) document.root.children }⟩,
        answered skip (replace? classes) document.root.children) := by
  simp [replaceIn, Element.splice, spliceNodes_stateless]

/-- Passes that put icons in the place of shortcodes commute, whatever each of them skips. A pass
absorbs an earlier one that skips all that it skips, and the two replace together as many texts as
it would replace alone. In particular a pass that is repeated changes nothing and replaces no
text. -/
theorem replaceIn_replaceIn (classes : Classes) (first second : List String)
    (document : Document) :
    (replaceIn classes second (replaceIn classes first document).1).1 =
        (replaceIn classes first (replaceIn classes second document).1).1 ∧
      ((∀ tag ∈ second, tag ∈ first) →
        (replaceIn classes second (replaceIn classes first document).1).1 =
            (replaceIn classes second document).1 ∧
          (replaceIn classes first document).2 +
              (replaceIn classes second (replaceIn classes first document).1).2 =
            (replaceIn classes second document).2) ∧
      replaceIn classes first (replaceIn classes first document).1 =
        ((replaceIn classes first document).1, 0) := by
  have hs := settles_replace? classes
  simp only [replaceIn_eq]
  refine ⟨?_, fun hsub => ⟨?_, ?_⟩, ?_⟩
  · rw [rewriteNodes_rewriteNodes_comm hs]
  · rw [rewriteNodes_rewriteNodes_of_subset hs hsub]
  · exact answered_rewriteNodes_of_subset hs hsub _
  -- a repeated pass is one that skips the same
  · have hsub : ∀ tag ∈ first, tag ∈ first := fun _ htag => htag
    have hcount := answered_rewriteNodes_of_subset hs hsub document.root.children
    rw [rewriteNodes_rewriteNodes_of_subset hs hsub]
    exact congrArg _ (by omega)

/-- A pass that leaves out code, and after it one that leaves out nothing. -/
theorem replaceIn_replaceIn_code :
    let document := Document.ofNodes [.element "code" .empty [.text ":fa-solid:x:"],
      .text "a :fa-brands:y: b"]
    (∀ tag ∈ ([] : List String), tag ∈ ["code"]) ∧
      (replaceIn {} [] (replaceIn {} ["code"] document).1).1 = (replaceIn {} [] document).1 ∧
      (replaceIn {} ["code"] document).2 +
          (replaceIn {} [] (replaceIn {} ["code"] document).1).2 =
        (replaceIn {} [] document).2 :=
  have hsub : ∀ tag ∈ ([] : List String), tag ∈ ["code"] := by simp
  ⟨hsub, (replaceIn_replaceIn {} ["code"] [] _).2.1 hsub⟩

end IconMarkup.Icon
