import IconMarkup.Proofs.Html.Doctype

/-!
# Reading documents again

`Document.reread`: reading the markup of a document of legible nodes finds what the markup tells,
with attributes arranged. That is legible again and is the same from then on
(`legibleNodes_rereadNodes`, `rereadNodes_rereadNodes`).
-/

namespace IconMarkup

open Html
open Icon.Cut

/-- What is read from the markup of nodes. -/
def rereadNodes (nodes : List Node) : List Node :=
  arrangedNodes (writtenFrom [] nodes)

/-! ### Reading twice -/

/-- Attributes whose order is that of arranged ones are arranged. -/
theorem Attributes.arranged_append {others ids classes : List (String × String)}
    (hothers : ∀ entry ∈ others, entry.1 ≠ "id" ∧ entry.1 ≠ "class")
    (hids : ∀ entry ∈ ids, entry.1 = "id") (hclasses : ∀ entry ∈ classes, entry.1 = "class") :
    (Attributes.mk (others ++ ids ++ classes)).arranged = ⟨others ++ ids ++ classes⟩ := by
  -- each of the three parts is found again, and nothing of it in the other two
  have hnone : ∀ {entries : List (String × String)} {isKind : String × String → Bool},
      (∀ entry ∈ entries, isKind entry = false) → entries.filter isKind = [] := fun h =>
    List.filter_eq_nil_iff.mpr fun entry hentry => by simp [h entry hentry]
  have hother : (others ++ ids ++ classes).filter
      (fun entry => entry.1 ≠ "id" ∧ entry.1 ≠ "class") = others := by
    rw [List.filter_append, List.filter_append, List.filter_eq_self.mpr (by simpa using hothers),
      hnone fun entry hentry => by simp [hids entry hentry],
      hnone fun entry hentry => by simp [hclasses entry hentry], List.append_nil, List.append_nil]
  have hid : (others ++ ids ++ classes).filter (·.1 = "id") = ids := by
    rw [List.filter_append, List.filter_append,
      hnone fun entry hentry => by simp [(hothers entry hentry).1],
      List.filter_eq_self.mpr (by simpa using hids),
      hnone fun entry hentry => by simp [hclasses entry hentry], List.append_nil, List.nil_append]
  have hclass : (others ++ ids ++ classes).filter (·.1 = "class") = classes := by
    rw [List.filter_append, List.filter_append,
      hnone fun entry hentry => by simp [(hothers entry hentry).2],
      hnone fun entry hentry => by simp [hids entry hentry],
      List.filter_eq_self.mpr (by simpa using hclasses), List.nil_append, List.nil_append]
  rw [arranged, hother, hid, hclass]

/-- Arranged attributes stay in their order. -/
theorem Attributes.arranged_arranged (attributes : Attributes) :
    attributes.arranged.arranged = attributes.arranged :=
  arranged_append (fun _ hentry => of_decide_eq_true (List.mem_filter.mp hentry).2)
    (fun _ hentry => of_decide_eq_true (List.mem_filter.mp hentry).2)
    fun _ hentry => of_decide_eq_true (List.mem_filter.mp hentry).2

mutual

private theorem Node.arranged_arranged : ∀ node : Node, node.arranged.arranged = node.arranged
  | .element tag attributes children => by
    rw [Node.arranged, Node.arranged, Attributes.arranged_arranged,
      arrangedNodes_arrangedNodes children]
  | .text content => by rw [Node.arranged, Node.arranged]
  | .raw content => by rw [Node.arranged, Node.arranged]
  | .comment content => by rw [Node.arranged, Node.arranged]

/-- Attributes are arranged once and for all. -/
theorem arrangedNodes_arrangedNodes :
    ∀ nodes : List Node, arrangedNodes (arrangedNodes nodes) = arrangedNodes nodes
  | [] => rfl
  | node :: rest => by
    rw [arrangedNodes, arrangedNodes, Node.arranged_arranged node,
      arrangedNodes_arrangedNodes rest]

end

/-- A text at the front is joined to what comes before it. -/
theorem writtenFrom_textNodes_append (before cs : List Char) (rest : List Node) :
    writtenFrom before (textNodes cs ++ rest) = writtenFrom (before ++ cs) rest := by
  rw [textNodes]
  split
  · rename_i hnil
    rw [hnil, List.append_nil, List.nil_append]
  · rw [List.singleton_append, writtenFrom, String.toList_ofList]

/-- A node is no text because of what its markup tells. -/
private theorem Node.written_ne_text {node : Node} (h : ∀ content, node ≠ .text content)
    (content : String) : node.written ≠ .text content := by
  cases node with
  | text content => exact absurd rfl (h content)
  | element tag attributes children => simp [Node.written]
  | raw content => simp [Node.written]
  | comment content => simp [Node.written]

private theorem Node.arranged_ne_text {node : Node} (h : ∀ content, node ≠ .text content)
    (content : String) : node.arranged ≠ .text content := by
  cases node with
  | text content => exact absurd rfl (h content)
  | element tag attributes children => simp [Node.arranged]
  | raw content => simp [Node.arranged]
  | comment content => simp [Node.arranged]

mutual

/-- What the markup of a node tells is told again by its own markup. -/
theorem Node.written_written : ∀ node : Node, node.written.written = node.written
  | .element tag attributes children => by
    have hchildren := writtenFrom_writtenFrom children [] []
    rw [Node.written, Node.written]
    cases isVoidTag tag
    · rw [if_neg (by simp), if_neg (by simp), hchildren]
      rfl
    · rfl
  | .text content => by rw [Node.written, Node.written]
  | .raw content => by rw [Node.written, Node.written]
  | .comment content => by rw [Node.written, Node.written]

/-- What markup tells is told again by its own markup. -/
theorem writtenFrom_writtenFrom : ∀ (nodes : List Node) (before cs : List Char),
    writtenFrom before (writtenFrom cs nodes) = writtenFrom (before ++ cs) nodes
  | [], before, cs => by
    have hlast := writtenFrom_textNodes_append before cs []
    rwa [List.append_nil] at hlast
  | node :: rest, before, cs => by
    by_cases htext : ∃ content, node = .text content
    · obtain ⟨content, rfl⟩ := htext
      rw [writtenFrom, writtenFrom_writtenFrom rest, writtenFrom, List.append_assoc]
    · have hnode := not_exists.mp htext
      rw [writtenFrom_cons hnode, writtenFrom_textNodes_append,
        writtenFrom_cons (Node.written_ne_text hnode), Node.written_written node,
        writtenFrom_writtenFrom rest [] [], writtenFrom_cons hnode]
      rfl

end

mutual

private theorem Node.arranged_written : ∀ node : Node, node.written.arranged = node.arranged.written
  | .element tag attributes children => by
    rw [Node.written, Node.arranged, Node.arranged, Node.written]
    cases isVoidTag tag
    · rw [if_neg (by simp), if_neg (by simp), arrangedNodes_writtenFrom children []]
    · rfl
  | .text content => by simp [Node.written, Node.arranged]
  | .raw content => by simp [Node.written, Node.arranged]
  | .comment content => by simp [Node.written, Node.arranged]

/-- What markup tells does not depend on the order of attributes. -/
theorem arrangedNodes_writtenFrom : ∀ (nodes : List Node) (before : List Char),
    arrangedNodes (writtenFrom before nodes) = writtenFrom before (arrangedNodes nodes)
  | [], before => arrangedNodes_textNodes before
  | node :: rest, before => by
    by_cases htext : ∃ content, node = .text content
    · obtain ⟨content, rfl⟩ := htext
      rw [writtenFrom, arrangedNodes, Node.arranged, writtenFrom, arrangedNodes_writtenFrom rest]
    · have hnode := not_exists.mp htext
      rw [writtenFrom_cons hnode, arrangedNodes_append, arrangedNodes_textNodes, arrangedNodes,
        arrangedNodes, Node.arranged_written node, arrangedNodes_writtenFrom rest,
        writtenFrom_cons (Node.arranged_ne_text hnode)]

end

/-- From the second time on the same is read. -/
theorem rereadNodes_rereadNodes (nodes : List Node) :
    rereadNodes (rereadNodes nodes) = rereadNodes nodes := by
  rw [rereadNodes, rereadNodes, ← arrangedNodes_writtenFrom, writtenFrom_writtenFrom,
    arrangedNodes_arrangedNodes]
  rfl

/-- What is read has no neighbouring texts. -/
theorem writtenFrom_rereadNodes (nodes : List Node) :
    writtenFrom [] (rereadNodes nodes) = rereadNodes nodes := by
  rw [rereadNodes, ← arrangedNodes_writtenFrom, writtenFrom_writtenFrom]
  rfl

/-! ### Legible nodes stay legible -/

theorem isOpenIn_append (first second : List Node) :
    isOpenIn (first ++ second) = (isOpenIn first || isOpenIn second) := by
  induction first with
  | nil => simp [isOpenIn]
  | cons node rest ih => simp [isOpenIn, ih, Bool.or_assoc]

/-- A text leaves nothing open. -/
theorem isOpenIn_textNodes (cs : List Char) : isOpenIn (textNodes cs) = false := by
  rw [textNodes]
  split <;> rfl

/-- Legible nodes stay legible side by side, if nothing comes after an open one. -/
theorem legibleNodes_append {first second : List Node} (hfirst : LegibleNodes first)
    (hsecond : LegibleNodes second) (hopen : isOpenIn first = true → second = []) :
    LegibleNodes (first ++ second) := by
  induction first with
  | nil => exact hsecond
  | cons node rest ih =>
    rw [LegibleNodes] at hfirst
    obtain ⟨hnode, hlast, hrest⟩ := hfirst
    rw [isOpenIn] at hopen
    refine ⟨hnode, fun hnodeOpen => ?_, ih hrest fun hrestOpen => hopen (by simp [hrestOpen])⟩
    rw [hlast hnodeOpen, hopen (by simp [hnodeOpen])]
    rfl

/-- A text is legible. -/
theorem legibleNodes_textNodes (cs : List Char) : LegibleNodes (textNodes cs) := by
  rw [textNodes]
  split
  · trivial
  · exact ⟨trivial, fun _ => rfl, trivial⟩

mutual

private theorem Node.isOpen_written : ∀ node : Node, node.written.isOpen = node.isOpen
  | .element tag attributes children => by
    rw [Node.written, Node.isOpen, Node.isOpen]
    cases isVoidTag tag
    · rw [if_neg (by simp), isOpenIn_writtenFrom children]
    · rfl
  | .text content => by rw [Node.written]
  | .raw content => by rw [Node.written]
  | .comment content => by rw [Node.written]

/-- What markup tells of nodes is open exactly if they are. -/
private theorem isOpenIn_writtenFrom : ∀ (nodes : List Node) (before : List Char),
    isOpenIn (writtenFrom before nodes) = isOpenIn nodes
  | [], before => isOpenIn_textNodes before
  | node :: rest, before => by
    by_cases htext : ∃ content, node = .text content
    · obtain ⟨content, rfl⟩ := htext
      rw [writtenFrom, isOpenIn_writtenFrom rest]
      rfl
    · rw [writtenFrom_cons (not_exists.mp htext), isOpenIn_append, isOpenIn_textNodes, isOpenIn,
        isOpenIn, Node.isOpen_written node, isOpenIn_writtenFrom rest, Bool.false_or]

end

mutual

private theorem Node.legible_written : ∀ node : Node, node.Legible → node.written.Legible
  | .element tag attributes children, h => by
    rw [Node.Legible] at h
    obtain ⟨hstart, hothers, hcontent⟩ := h
    rw [Node.written, Node.Legible]
    refine ⟨hstart, hothers, fun hvoid => ?_⟩
    obtain ⟨hempty, hhyphens, hraw, hchildren⟩ := hcontent hvoid
    rw [hvoid, if_neg (by simp), isOpenIn_writtenFrom children []]
    refine ⟨fun hopens => ?_, hhyphens, fun htag => ?_, fun htag => ?_⟩
    · rw [hempty hopens]
      rfl
    · obtain ⟨content, rfl, hbody⟩ := hraw htag
      exact ⟨content, writtenFrom_rawText content, hbody⟩
    · exact legibleNodes_writtenFrom children [] (hchildren htag)
  | .text content, _ => by
    rw [Node.written]
    trivial
  | .raw content, h => by
    rw [Node.Legible] at h
    exact h.elim
  | .comment content, h => by rwa [Node.written]

/-- What markup tells of legible nodes is legible. -/
theorem legibleNodes_writtenFrom : ∀ (nodes : List Node) (before : List Char),
    LegibleNodes nodes → LegibleNodes (writtenFrom before nodes)
  | [], before, _ => legibleNodes_textNodes before
  | node :: rest, before, h => by
    rw [LegibleNodes] at h
    obtain ⟨hnode, hopen, hrest⟩ := h
    by_cases htext : ∃ content, node = .text content
    · obtain ⟨content, rfl⟩ := htext
      rw [writtenFrom]
      exact legibleNodes_writtenFrom rest _ hrest
    · rw [writtenFrom_cons (not_exists.mp htext)]
      refine legibleNodes_append (legibleNodes_textNodes before)
        ⟨Node.legible_written node hnode, fun hwritten => ?_,
          legibleNodes_writtenFrom rest [] hrest⟩
        (by simp [isOpenIn_textNodes])
      rw [hopen (by rwa [Node.isOpen_written node] at hwritten)]
      rfl

end

/-- A nameless attribute at the front stays there. -/
private theorem Attributes.head?_arranged {attributes : Attributes}
    (h : ∀ entry ∈ attributes.toList.head?, entry.1 = "") :
    attributes.arranged.toList.head? = attributes.toList.head? := by
  rcases attributes with ⟨_ | ⟨entry, rest⟩⟩
  · rfl
  · have hname : entry.1 = "" := h entry rfl
    simp [Attributes.arranged, Attributes.toList, hname]

namespace Html

/-- A legible start tag is legible with its attributes arranged. -/
private theorem IsLegibleStart.arranged {tag : String} {attributes : Attributes}
    (h : IsLegibleStart tag attributes) : IsLegibleStart tag attributes.arranged where
  name := h.name
  lower := h.lower
  names entry hentry := h.names entry (attributes.perm_arranged.mem_iff.mpr hentry)
  nameless htag := by
    rw [attributes.head?_arranged (h.nameless htag)]
    exact h.nameless htag
  distinct := (attributes.perm_arranged.map _).nodup_iff.mp h.distinct

/-- Arranged attributes are no more than the attributes were. -/
private theorem HasFewOthers.arranged {attributes : Attributes} (h : HasFewOthers attributes) :
    HasFewOthers attributes.arranged := by
  rw [HasFewOthers, ← (attributes.perm_arranged.filter _).length_eq]
  exact h

end Html

mutual

private theorem Node.isOpen_arranged : ∀ node : Node, node.arranged.isOpen = node.isOpen
  | .element tag attributes children => by
    rw [Node.arranged, Node.isOpen, Node.isOpen, isOpenIn_arrangedNodes children]
  | .text content => by rw [Node.arranged]
  | .raw content => by rw [Node.arranged]
  | .comment content => by rw [Node.arranged]

private theorem isOpenIn_arrangedNodes :
    ∀ nodes : List Node, isOpenIn (arrangedNodes nodes) = isOpenIn nodes
  | [] => rfl
  | node :: rest => by
    rw [arrangedNodes, isOpenIn, isOpenIn, Node.isOpen_arranged node, isOpenIn_arrangedNodes rest]

end

mutual

private theorem Node.legible_arranged : ∀ node : Node, node.Legible → node.arranged.Legible
  | .element tag attributes children, h => by
    rw [Node.Legible] at h
    obtain ⟨hstart, hothers, hcontent⟩ := h
    rw [Node.arranged, Node.Legible]
    refine ⟨hstart.arranged, hothers.arranged, fun hvoid => ?_⟩
    obtain ⟨hempty, hhyphens, hraw, hchildren⟩ := hcontent hvoid
    rw [isOpenIn_arrangedNodes children]
    refine ⟨fun hopens => ?_, hhyphens, fun htag => ?_, fun htag => ?_⟩
    · rw [hempty hopens]
      rfl
    · obtain ⟨content, rfl, hbody⟩ := hraw htag
      exact ⟨content, arrangedNodes_rawText content, hbody⟩
    · exact legibleNodes_arrangedNodes children (hchildren htag)
  | .text content, _ => by
    rw [Node.arranged]
    trivial
  | .raw content, h => by
    rw [Node.Legible] at h
    exact h.elim
  | .comment content, h => by rwa [Node.arranged]

/-- Legible nodes stay legible when their attributes are arranged. -/
theorem legibleNodes_arrangedNodes :
    ∀ nodes : List Node, LegibleNodes nodes → LegibleNodes (arrangedNodes nodes)
  | [], _ => trivial
  | node :: rest, h => by
    rw [LegibleNodes] at h
    obtain ⟨hnode, hopen, hrest⟩ := h
    refine ⟨Node.legible_arranged node hnode, fun harranged => ?_,
      legibleNodes_arrangedNodes rest hrest⟩
    rw [hopen (by rwa [Node.isOpen_arranged node] at harranged)]
    rfl

end

/-- What is read from the markup of legible nodes is legible. -/
theorem legibleNodes_rereadNodes {nodes : List Node} (h : LegibleNodes nodes) :
    LegibleNodes (rereadNodes nodes) :=
  legibleNodes_arrangedNodes _ (legibleNodes_writtenFrom nodes [] h)

/-! ### Documents -/

/-- The markup of legible nodes has no document type declaration, not even after white space. -/
theorem not_beginsDoctype_of_legible : ∀ {nodes : List Node}, LegibleNodes nodes →
    ¬ BeginsDoctype (Text.trimStart (markupOf nodes))
  | [], _ => by
    intro hdoctype
    obtain ⟨second, third, rest, hshape, -⟩ := hdoctype.shape
    cases hshape
  | .text content :: rest, h => by
    rw [LegibleNodes] at h
    exact not_beginsDoctype_of_text _ (not_beginsDoctype_of_legible h.2.2)
  | .element tag attributes children :: rest, h => by
    rw [LegibleNodes, Node.Legible] at h
    obtain ⟨⟨hstart, -⟩, -⟩ := h
    intro hdoctype
    obtain ⟨second, third, more, hshape, hsecond, -⟩ := hdoctype.shape
    rw [eq_of_toLower_eq hsecond (by decide)] at hshape
    obtain ⟨after, hafter⟩ := hstart.exists_markup_eq children
    rw [markupOf, hafter, List.cons_append, Text.trimStart, List.dropWhile_cons_of_neg (by decide),
      List.cons.injEq, List.append_assoc, List.append_assoc] at hshape
    -- what follows `<` is the first character of the name, a blank, or `>`
    rcases hname : tag.toList with _ | ⟨c, cs⟩
    · rw [hname] at hshape
      rcases hattributes : attributes.toList with _ | ⟨entry, entries⟩ <;>
        simp [hattributes, markupAttribute] at hshape
    · rw [hname, List.cons_append, List.cons.injEq] at hshape
      have hc := hstart.name.chars c (by rw [hname]; exact List.mem_cons_self ..)
      exact ne_of_isNameChar hc (by decide) hshape.2.1
  | .raw content :: rest, h => by
    rw [LegibleNodes, Node.Legible] at h
    exact h.1.elim
  | .comment content :: rest, h => by
    intro hdoctype
    obtain ⟨second, third, more, hshape, -, hthird⟩ := hdoctype.shape
    have hsame : third = '-' := by
      simp [markupOf, Node.markup, Text.trimStart, Text.isBlank] at hshape
      exact hshape.2.1.symm
    rw [hsame] at hthird
    exact absurd hthird (by decide)

/-- The markup of legible nodes is the rest of the text after a document type declaration. -/
private theorem splitDoctype_append_markupOf {cs doctype rest : List Char} {nodes : List Node}
    (hdoctype : splitDoctype cs = (doctype, rest)) (h : LegibleNodes nodes) :
    splitDoctype (doctype ++ markupOf nodes) = (doctype, markupOf nodes) := by
  by_cases hnil : doctype = []
  · rw [hnil, List.nil_append, splitDoctype]
    exact if_neg (not_beginsDoctype_of_legible h)
  · exact splitDoctype_of_isDoctype ((isDoctype_of_splitDoctype hdoctype).2 hnil) _

/-- What is read from the markup of legible nodes, after a document type declaration if there is
one, is what the markup tells. -/
theorem ofHtml_of_legible {cs doctype rest : List Char} {nodes : List Node}
    (hdoctype : splitDoctype cs = (doctype, rest)) (h : LegibleNodes nodes) :
    Document.ofHtml (String.ofList (doctype ++ markupOf nodes)) =
      .ofNodes (rawText doctype ++ rereadNodes nodes) := by
  obtain ⟨sources, hsources, hnodes, -⟩ := readsTo_markupOf nodes [] h
  have hread : SourceNode.ofText (markupOf nodes) = sources := hsources.ofText
  rw [Document.ofHtml, String.toList_ofList, splitDoctype_append_markupOf hdoctype h]
  simp only
  rw [hread, hnodes, rereadNodes]

/-- The start tags in the markup of legible nodes have few attributes. -/
theorem hasFewAttributes_of_legible {cs doctype rest : List Char} {nodes : List Node}
    (hdoctype : splitDoctype cs = (doctype, rest)) (h : LegibleNodes nodes) :
    HasFewAttributes (String.ofList (doctype ++ markupOf nodes)) := by
  obtain ⟨sources, hsources, -, hfew⟩ := readsTo_markupOf nodes [] h
  have hread : SourceNode.ofText (markupOf nodes) = sources := hsources.ofText
  rw [HasFewAttributes, String.toList_ofList, splitDoctype_append_markupOf hdoctype h,
    ← throughoutAll_ofText_iff, hread]
  exact hfew

end IconMarkup
