import Mathlib.Logic.Relation
import IconMarkup.Pipeline
import IconMarkup.Proofs.Markdown.Content

/-!
# How text is cut into events

A text that comes in several events is the same as one that comes in one event. So two sequences of
events that can be made equal by cutting texts and putting parts together, wherever they stand and
whether or not the events are nested, have the same document (`ofEvents_of_recut`), with the same
markup and the same shortcodes.
-/

namespace IconMarkup.Markdown

/-- Whether the second sequence is the first one with one of its texts cut in two. -/
inductive CutOnce : List Event → List Event → Prop
  | cut (before after : List Event) (a b : String) :
    CutOnce (before ++ .text (a ++ b) :: after) (before ++ .text a :: .text b :: after)

/-- Whether two sequences differ only in how their texts are cut. -/
def Recut : List Event → List Event → Prop :=
  Relation.EqvGen CutOnce

/-- Text that is added in two parts. -/
theorem appendText_appendText (a b : String) (nodes : List Node) :
    appendText b (appendText a nodes) = appendText (a ++ b) nodes := by
  by_cases ha : a.isEmpty = true
  · rw [appendText_of_isEmpty ha, String.isEmpty_iff.mp ha, String.empty_append]
  · have hboth : ¬ (a ++ b).isEmpty = true := fun h => by
      rw [String.isEmpty_iff, String.append_eq_empty_iff] at h
      exact ha (String.isEmpty_iff.mpr h.1)
    rcases hlast : nodes.getLast? with _ | last
    · simp [appendText, hlast, ha, hboth]
    · cases last <;> simp [appendText, hlast, ha, hboth, String.append_assoc]

variable {first second : List Event}

/-- A text that is cut in two leads to the same state, whatever came before it. -/
private theorem foldl_take_of_cutOnce (h : CutOnce first second) (builder : Builder) :
    first.foldl Builder.take builder = second.foldl Builder.take builder := by
  obtain ⟨before, after, a, b⟩ := h
  simp only [List.foldl_append, List.foldl_cons, Builder.take, Builder.addText_eq,
    Builder.revise_revise, appendText_appendText]

/-- Sequences that differ only in how their texts are cut lead to the same state. -/
theorem foldl_take_of_recut (h : Recut first second) (builder : Builder) :
    first.foldl Builder.take builder = second.foldl Builder.take builder := by
  induction h with
  | rel _ _ hcut => exact foldl_take_of_cutOnce hcut builder
  | refl _ => rfl
  | symm _ _ _ ih => exact ih.symm
  | trans _ _ _ _ _ ih ih' => exact ih.trans ih'

/-- A text that comes in any number of parts, possibly none, is added as a whole. -/
private theorem foldl_take_texts (parts : List String) (builder : Builder) :
    (parts.map Event.text).foldl Builder.take builder =
      builder.take (.text (String.join parts)) := by
  induction parts generalizing builder with
  | nil => exact (if_pos rfl : builder.addText "" = builder).symm
  | cons part rest ih =>
    rw [List.map_cons, List.foldl_cons, ih, String.join_cons]
    simp only [Builder.take, Builder.addText_eq, Builder.revise_revise, appendText_appendText]

/-- Sequences of events that differ only in how their texts are cut have the same document, so that
the same markup is written and the same shortcodes are found. In particular a shortcode that is
spread over several events is found as in one. -/
theorem ofEvents_of_recut (h : Recut first second) (settings : Config.Settings) :
    Document.ofEvents first = Document.ofEvents second ∧
      process (.ofEvents first) settings = process (.ofEvents second) settings ∧
      collect (.ofEvents first) settings = collect (.ofEvents second) settings ∧
      ∀ (before after : List Event) (parts : List String),
        collect (.ofEvents (before ++ parts.map .text ++ after)) settings =
          collect (.ofEvents (before ++ .text (String.join parts) :: after)) settings := by
  have hdocument : Document.ofEvents first = Document.ofEvents second := by
    rw [Document.ofEvents, Document.ofEvents, foldl_take_of_recut h]
  refine ⟨hdocument, by rw [hdocument], by rw [hdocument], fun before after parts => ?_⟩
  simp only [Document.ofEvents, List.foldl_append, List.foldl_cons, foldl_take_texts]

/-- A shortcode that is cut in two, in a cell of its own, is found. -/
theorem ofEvents_of_recut_cup :
    Recut [.start .tableCell, .text ":fa-solid:cup:", .finish .tableCell]
        [.start .tableCell, .text ":fa-so", .text "lid:cup:", .finish .tableCell] ∧
      collect (.ofEvents [.start .tableCell, .text ":fa-so", .text "lid:cup:",
        .finish .tableCell]) {} = [⟨":fa-solid:cup:", .solid, "cup", ["fa-solid", "fa-cup"]⟩] := by
  have hcut : Recut [.start .tableCell, .text ":fa-solid:cup:", .finish .tableCell]
      [.start .tableCell, .text ":fa-so", .text "lid:cup:", .finish .tableCell] :=
    .rel _ _ (.cut [.start .tableCell] [.finish .tableCell] ":fa-so" "lid:cup:")
  refine ⟨hcut, ?_⟩
  rw [← (ofEvents_of_recut hcut {}).2.2.1]
  decide +kernel

end IconMarkup.Markdown
