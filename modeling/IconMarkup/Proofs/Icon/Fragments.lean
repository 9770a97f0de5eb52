import IconMarkup.Proofs.Icon.Agreement
import IconMarkup.Proofs.Icon.Markup
import IconMarkup.Proofs.Icon.Scanning

/-!
# Fragments and their source

`fragment_restores`: a text that is cut at shortcodes can be put together again from the nodes of
`fragment`. It does not matter whether the shortcodes were found by `scan`: it is enough that their
offsets are between characters and that none begins before the end of an earlier one (`FitIn`). The
nodes are the icons of the shortcodes, in order, and the text between them (`fragmentFrom_eq`). When
the shortcodes are those of the text, nothing that can be found is left in the text between them.
-/

namespace IconMarkup.Icon

open Cut Html

/-- Whether shortcodes can be cut out of a text one after the other. -/
structure FitIn (text : String) (shortcodes : List Shortcode) : Prop where
  ordered : shortcodes.Pairwise fun first second => first.stop ≤ second.start
  start_isValid : ∀ shortcode ∈ shortcodes, (⟨shortcode.start⟩ : String.Pos.Raw).IsValid text
  stop_isValid : ∀ shortcode ∈ shortcodes, (⟨shortcode.stop⟩ : String.Pos.Raw).IsValid text

/-- The text of nodes, with the next of some pieces in the place of each node that is no text. -/
def refilled : List Node → List (List Char) → List Char
  | [], _ => []
  | .text content :: rest, pieces => content.toList ++ refilled rest pieces
  | _ :: rest, piece :: pieces => piece ++ refilled rest pieces
  | _ :: rest, [] => refilled rest []

/-- Whether nodes are the icons of shortcodes and the text around them. -/
structure IsFragmentOf (classes : Classes) (text : String) (shortcodes : List Shortcode)
    (nodes : List Node) : Prop where
  icons : nodes.filterMap Node.element? =
    shortcodes.map fun shortcode => element classes shortcode.style shortcode.icon
  refilled : refilled nodes (shortcodes.map fun shortcode =>
    Text.sliceBytes shortcode.start shortcode.stop text.toList) = text.toList
  texts : ∀ node ∈ nodes, (∃ content, content ≠ "" ∧ node = .text content) ∨
    ∃ shortcode ∈ shortcodes, node = (element classes shortcode.style shortcode.icon).toNode
  apart : TextsApart nodes

/-! ### The nodes of a fragment -/

/-- Where the text before some shortcodes ends. -/
def leadStop (cs : List Char) : List Shortcode → Nat
  | [] => Text.byteLength cs
  | shortcode :: _ => shortcode.start

/-- The shortcodes, each with the text up to the next one. -/
def marksIn (cs : List Char) : List Shortcode → List Mark
  | [] => []
  | shortcode :: rest =>
    ⟨shortcode.style, shortcode.icon.toList,
      Text.sliceBytes shortcode.stop (leadStop cs rest) cs⟩ :: marksIn cs rest

section

variable {text : String} {shortcode : Shortcode} {shortcodes : List Shortcode} {cursor : Nat}

private theorem FitIn.tail (h : FitIn text (shortcode :: shortcodes)) : FitIn text shortcodes :=
  ⟨h.ordered.of_cons, fun _ hmem => h.start_isValid _ (List.mem_cons_of_mem _ hmem),
    fun _ hmem => h.stop_isValid _ (List.mem_cons_of_mem _ hmem)⟩

private theorem FitIn.leadStop_isValid (h : FitIn text shortcodes) :
    (⟨leadStop text.toList shortcodes⟩ : String.Pos.Raw).IsValid text := by
  rcases shortcodes with _ | ⟨shortcode, rest⟩
  · exact Text.isValid_iff.mpr ⟨text.toList, [], by simp, rfl⟩
  · exact h.start_isValid _ List.mem_cons_self

private theorem FitIn.stop_le_leadStop (h : FitIn text (shortcode :: shortcodes)) :
    shortcode.stop ≤ leadStop text.toList shortcodes := by
  rcases shortcodes with _ | ⟨next, rest⟩
  · have hle := (h.stop_isValid _ List.mem_cons_self).le_utf8ByteSize
    rwa [leadStop, Text.byteLength_toList]
  · exact List.rel_of_pairwise_cons h.ordered List.mem_cons_self

/-- A gap between valid offsets is the text between them. -/
private theorem gap_eq_textNodes {start stop : Nat}
    (hstart : (⟨start⟩ : String.Pos.Raw).IsValid text)
    (hstop : (⟨stop⟩ : String.Pos.Raw).IsValid text) :
    gap text.toList start stop = textNodes (Text.sliceBytes start stop text.toList) := by
  rw [gap, textNodes]
  by_cases hlt : start < stop
  · have hlength := (Text.dropBytes_eq_append hstart hstop hlt.le).2
    have hne : Text.sliceBytes start stop text.toList ≠ [] := by
      intro hempty
      rw [hempty, Text.byteLength] at hlength
      omega
    rw [if_pos hlt, if_neg hne]
  · have hempty : Text.sliceBytes start stop text.toList = [] := by
      rw [Text.sliceBytes, Nat.sub_eq_zero_of_le (by omega), Text.takeBytes]
    rw [if_neg hlt, if_pos hempty]

/-- A fragment is the text before the first shortcode, and each icon with the text after it. -/
theorem fragmentFrom_eq (classes : Classes) (hcursor : (⟨cursor⟩ : String.Pos.Raw).IsValid text)
    (h : FitIn text shortcodes) :
    fragmentFrom classes text.toList cursor shortcodes =
      textNodes (Text.sliceBytes cursor (leadStop text.toList shortcodes) text.toList) ++
        (marksIn text.toList shortcodes).flatMap (markNodes classes) := by
  induction shortcodes generalizing cursor with
  | nil =>
    have hgap := gap_eq_textNodes hcursor h.leadStop_isValid
    rw [marksIn, List.flatMap_nil, List.append_nil, ← hgap, fragmentFrom, leadStop]
  | cons shortcode rest ih =>
    have hstart := h.start_isValid _ List.mem_cons_self
    have hstop := h.stop_isValid _ List.mem_cons_self
    rw [fragmentFrom, gap_eq_textNodes hcursor hstart, ih hstop h.tail, marksIn, List.flatMap_cons,
      markNodes, String.ofList_toList]
    rfl

end

/-! ### What a fragment has -/

section

variable {classes : Classes} {text : String} {shortcodes : List Shortcode}

private theorem mem_textNodes {cs : List Char} {node : Node} :
    node ∈ textNodes cs ↔ cs ≠ [] ∧ node = .text (String.ofList cs) := by
  rw [textNodes]
  split <;> simp_all

private theorem refilled_textNodes_append (cs : List Char) (rest : List Node)
    (pieces : List (List Char)) :
    refilled (textNodes cs ++ rest) pieces = cs ++ refilled rest pieces := by
  rw [textNodes]
  split <;> simp_all [refilled]

/-- From the first shortcode on, the icons and the text after them stand for the rest of the
text. -/
private theorem refilled_marksIn (classes : Classes) (h : FitIn text shortcodes) :
    refilled ((marksIn text.toList shortcodes).flatMap (markNodes classes))
        (shortcodes.map fun shortcode =>
          Text.sliceBytes shortcode.start shortcode.stop text.toList) =
      Text.dropBytes (leadStop text.toList shortcodes) text.toList := by
  induction shortcodes with
  | nil =>
    have hdrop := Text.dropBytes_byteLength_append text.toList []
    rw [List.append_nil] at hdrop
    rw [leadStop, hdrop, marksIn, List.flatMap_nil, refilled]
  | cons shortcode rest ih =>
    have hstart := h.start_isValid _ List.mem_cons_self
    have hstop := h.stop_isValid _ List.mem_cons_self
    have hspan := (Text.dropBytes_eq_append hstart hstop (Nat.le_add_right ..)).1
    have hafter :=
      (Text.dropBytes_eq_append hstop h.tail.leadStop_isValid h.stop_le_leadStop).1
    rw [leadStop, hspan, hafter, ← ih h.tail, ← refilled_textNodes_append]
    rfl

private theorem filterMap_marksIn (classes : Classes) (cs : List Char)
    (shortcodes : List Shortcode) :
    ((marksIn cs shortcodes).flatMap (markNodes classes)).filterMap Node.element? =
      shortcodes.map fun shortcode => element classes shortcode.style shortcode.icon := by
  rw [filterMap_flatMap_markNodes]
  induction shortcodes with
  | nil => rfl
  | cons shortcode rest ih =>
    rw [marksIn, List.map_cons, ih, String.ofList_toList, List.map_cons]

/-- A node after the lead is the icon of a shortcode or the text after one. -/
private theorem mem_flatMap_markNodes {marks : List Mark} {node : Node} :
    node ∈ marks.flatMap (markNodes classes) ↔ ∃ mark ∈ marks,
      node = (element classes mark.style (String.ofList mark.icon)).toNode ∨
        node ∈ textNodes mark.after := by
  simp [markNodes]

private theorem exists_of_mem_marksIn {cs : List Char} {mark : Mark}
    (h : mark ∈ marksIn cs shortcodes) :
    ∃ shortcode ∈ shortcodes, mark.style = shortcode.style ∧ mark.icon = shortcode.icon.toList := by
  induction shortcodes with
  | nil => simp [marksIn] at h
  | cons shortcode rest ih =>
    rcases List.mem_cons.mp h with rfl | h
    · exact ⟨shortcode, List.mem_cons_self, rfl, rfl⟩
    · obtain ⟨other, hother, hmark⟩ := ih h
      exact ⟨other, List.mem_cons_of_mem _ hother, hmark⟩

/-- A text that is cut at shortcodes becomes their icons and the text around them. -/
theorem isFragmentOf_fragment (classes : Classes) (hne : shortcodes ≠ [])
    (h : FitIn text shortcodes) :
    IsFragmentOf classes text shortcodes (fragment classes text shortcodes) := by
  have hzero : (⟨0⟩ : String.Pos.Raw).IsValid text :=
    Text.isValid_iff.mpr ⟨[], text.toList, rfl, rfl⟩
  have hnodes := fragmentFrom_eq classes hzero h
  rw [fragment, if_neg (by simpa using hne), hnodes]
  refine ⟨?_, ?_, fun node hmem => ?_, ?_⟩
  · rw [List.filterMap_append, filterMap_textNodes, List.nil_append, filterMap_marksIn]
  · have hlead := (Text.dropBytes_eq_append hzero h.leadStop_isValid (Nat.zero_le _)).1
    rw [refilled_textNodes_append, refilled_marksIn classes h, ← hlead, Text.dropBytes]
  · have htext : ∀ cs, node ∈ textNodes cs → ∃ content, content ≠ "" ∧ node = .text content := by
      intro cs hcs
      obtain ⟨hcs, hnode⟩ := mem_textNodes.mp hcs
      exact ⟨_, by simpa [← String.toList_inj] using hcs, hnode⟩
    rcases List.mem_append.mp hmem with hlead | hrest
    · exact .inl (htext _ hlead)
    · obtain ⟨mark, hmark, rfl | hafter⟩ := mem_flatMap_markNodes.mp hrest
      · obtain ⟨shortcode, hshortcode, hstyle, hicon⟩ := exists_of_mem_marksIn hmark
        exact .inr ⟨shortcode, hshortcode, by rw [hstyle, hicon, String.ofList_toList]⟩
      · exact .inl (htext _ hafter)
  · obtain ⟨hapart, hhead⟩ := textsApart_flatMap_markNodes classes (marksIn text.toList shortcodes)
    exact textsApart_textNodes_append _ hapart hhead

/-- The shortcodes of a text can be cut out of it. -/
private theorem IsScanOf.fitIn (h : IsScanOf text shortcodes) : FitIn text shortcodes :=
  ⟨h.ordered.imp fun hprecedes => hprecedes.2,
    fun _ hmem => (h.standsIn _ hmem).start_isValid, fun _ hmem => (h.standsIn _ hmem).stop_isValid⟩

/-- A text is replaced by the fragment for its shortcodes, if it has some. -/
theorem replace?_eq_some_iff {nodes : List Node} :
    replace? classes text = some nodes ↔
      scan text ≠ [] ∧ nodes = fragment classes text (scan text) := by
  rw [replace?]
  split
  · simp_all
  · rename_i hne
    rw [Option.some_inj, eq_comm, and_iff_right hne]

private theorem mem_offeredTexts {content : String} {nodes : List Node} (h : .text content ∈ nodes)
    (skip : List String) : content ∈ offeredTexts skip nodes := by
  induction nodes with
  | nil => exact absurd h List.not_mem_nil
  | cons node rest ih =>
    rw [offeredTexts, List.mem_append]
    rcases List.mem_cons.mp h with rfl | h
    · exact .inl (by simp [Node.offeredTexts])
    · exact .inr (ih h)

/-- No text in the replacement of a text has a shortcode. -/
private theorem scan_eq_nil_of_mem_replace? {nodes : List Node}
    (h : replace? classes text = some nodes)
    {content : String} (hmem : .text content ∈ nodes) : scan content = [] := by
  have hkept := settles_replace? classes text nodes h [] content (mem_offeredTexts hmem [])
  exact scan_eq_nil_iff.mpr (replace?_eq_none_iff.mp hkept)

end

/-- A text is restored from its fragments. For shortcodes that can be cut out of it one after the
other, there is one icon for each of them, in order, nonempty text between them and no two texts
next to each other, and with the pieces that were cut out in the place of the icons the nodes make
up the text; without shortcodes the text stays one piece. The shortcodes of the text are such
shortcodes: the text is replaced exactly when there are some, and then no text in its replacement
has one. -/
theorem fragment_restores (classes : Classes) (text : String) :
    fragment classes text [] = [.text text] ∧
      (∀ shortcodes, shortcodes ≠ [] → FitIn text shortcodes →
        IsFragmentOf classes text shortcodes (fragment classes text shortcodes)) ∧
      FitIn text (scan text) ∧
      (replace? classes text = none ↔ scan text = []) ∧
      ∀ nodes, replace? classes text = some nodes →
        IsFragmentOf classes text (scan text) nodes ∧
          ∀ content, .text content ∈ nodes → ∀ offset, ¬ BeginsAt content offset := by
  have hfit := (isScanOf_scan text).fitIn
  refine ⟨rfl, fun _ hne h => isFragmentOf_fragment classes hne h, hfit, ?_, fun nodes h => ?_⟩
  · rw [replace?_eq_none_iff, scan_eq_nil_iff, IsPlain]
  · refine ⟨?_, fun content hmem => ?_⟩
    · obtain ⟨hne, rfl⟩ := replace?_eq_some_iff.mp h
      exact isFragmentOf_fragment classes hne hfit
    · exact scan_eq_nil_iff_forall_not_beginsAt.mp (scan_eq_nil_of_mem_replace? h hmem)

/-- A letter of two bytes is cut out, and then nothing at all before the blank. From the other text
its one shortcode is cut out. -/
theorem fragment_restores_accent :
    let text := "aé b"
    let shortcodes : List Shortcode := [⟨.solid, "x", 1, 2⟩, ⟨.brands, "y", 3, 0⟩]
    let page := "é:fa-solid:x:"
    let nodes := [.text "é", (element {} .solid "x").toNode]
    (shortcodes ≠ [] ∧ FitIn text shortcodes ∧
        IsFragmentOf {} text shortcodes (fragment {} text shortcodes)) ∧
      replace? {} page = some nodes ∧ IsFragmentOf {} page (scan page) nodes ∧
      .text "é" ∈ nodes ∧ ∀ offset, ¬ BeginsAt "é" offset := by
  intro text shortcodes page nodes
  have hne : shortcodes ≠ [] := by simp [shortcodes]
  have hfit : FitIn text shortcodes := by
    refine ⟨?_, ?_, ?_⟩ <;> decide +kernel
  have hscan : scan page = [⟨.solid, "x", 2, 12⟩] := by decide +kernel
  have hnodes : fragment {} "é:fa-solid:x:" [⟨.solid, "x", 2, 12⟩] =
      [.text "é", (element {} .solid "x").toNode] := by
    rfl
  have hreplace : replace? {} page = some nodes := by
    rw [replace?, hscan]
    exact congrArg some hnodes
  have hmem : .text "é" ∈ nodes := List.mem_cons_self
  have hfragment := fragment_restores {} text
  have hpage := (fragment_restores {} page).2.2.2.2 nodes hreplace
  exact ⟨⟨hne, hfit, hfragment.2.1 shortcodes hne hfit⟩, hreplace, hpage.1, hmem,
    hpage.2 "é" hmem⟩

end IconMarkup.Icon
