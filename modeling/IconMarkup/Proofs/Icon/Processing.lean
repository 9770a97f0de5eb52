import IconMarkup.Pipeline
import IconMarkup.Proofs.Icon.Passes

/-!
# Processing fragments

What `process` and `collect` come to for the fragments that documents are read as: the markup of
the rewritten nodes (`toList_process_ofNodes`), and nothing found exactly when no offered text is
replaced (`collect_eq_nil_iff`). A document in which nothing is found is written as it is.
-/

namespace IconMarkup

open Icon Config

/-- Icons are put into a document by rewriting its nodes. -/
theorem withIcons_ofNodes (nodes : List Node) (settings : Settings) :
    ((Document.ofNodes nodes).withIcons settings).1 =
      .ofNodes (rewriteNodes settings.render.skipElements (replace? settings.icons) nodes) := by
  rw [Document.withIcons, replaceIn_eq]
  rfl

/-- A document is written as the markup of its nodes, without tags around it. -/
theorem toList_render_ofNodes (nodes : List Node) :
    (Document.ofNodes nodes).render.toList = markupOf nodes := by
  rw [Document.render, Element.render, Node.render, String.toList_ofList, Element.toNode,
    Node.markup, markupElement, Document.ofNodes, if_pos rfl]

/-- The outcome of processing is the markup of the rewritten nodes. -/
theorem toList_process_ofNodes (nodes : List Node) (settings : Settings) :
    (process (.ofNodes nodes) settings).toList =
      markupOf (rewriteNodes settings.render.skipElements (replace? settings.icons) nodes) := by
  rw [process, withIcons_ofNodes, toList_render_ofNodes]

/-- Nothing is found in a text exactly if the text is not replaced. -/
theorem Icon.foundIn_eq_nil_iff {classes : Classes} {text : String} :
    foundIn classes text = [] ↔ replace? classes text = none := by
  rw [foundIn, List.map_eq_nil_iff, scan_eq_nil_iff, replace?_eq_none_iff, IsPlain]

/-- Nothing is found in a document exactly when none of its offered texts is replaced. -/
theorem collect_eq_nil_iff {document : Document} {settings : Settings} :
    collect document settings = [] ↔
      ∀ text ∈ document.root.offeredTexts settings.render.skipElements,
        replace? settings.icons text = none := by
  rw [collect, List.flatMap_eq_nil_iff]
  simp only [foundIn_eq_nil_iff]

/-- Nothing is found in a document with icons. -/
theorem collect_withIcons (document : Document) (settings : Settings) :
    collect (document.withIcons settings).1 settings = [] := by
  have hcount := answered_rewriteNodes_of_subset (settles_replace? settings.icons)
    (fun _ htag => htag : ∀ tag ∈ settings.render.skipElements, tag ∈ settings.render.skipElements)
    document.root.children
  have hnone : answered settings.render.skipElements (replace? settings.icons)
      (rewriteNodes settings.render.skipElements (replace? settings.icons)
        document.root.children) = 0 := by
    omega
  rw [answered, List.countP_eq_zero] at hnone
  rw [Document.withIcons, replaceIn_eq, collect_eq_nil_iff]
  intro text htext
  simpa using hnone text htext

/-- Where nothing is found, nothing is rewritten. -/
theorem rewriteNodes_of_collect_eq_nil {nodes : List Node} {settings : Settings}
    (h : collect (.ofNodes nodes) settings = []) :
    rewriteNodes settings.render.skipElements (replace? settings.icons) nodes = nodes :=
  rewriteNodes_eq_self nodes (collect_eq_nil_iff.mp h)

/-- A document in which nothing is found is written as it is. -/
theorem toList_process_of_collect_eq_nil {nodes : List Node} {settings : Settings}
    (h : collect (.ofNodes nodes) settings = []) :
    (process (.ofNodes nodes) settings).toList = markupOf nodes := by
  rw [toList_process_ofNodes, rewriteNodes_of_collect_eq_nil h]

theorem process_of_collect_eq_nil {document : Document} {settings : Settings} {nodes : List Node}
    (hdocument : document = .ofNodes nodes) (h : collect document settings = []) :
    process document settings = document.render := by
  rw [hdocument] at h ⊢
  rw [← String.toList_inj, toList_process_of_collect_eq_nil h, toList_render_ofNodes]

end IconMarkup
