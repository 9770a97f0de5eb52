import IconMarkup.Markdown.Tree
import IconMarkup.Proofs.Markdown.Forest

/-!
# The content of event forests

What a forest of events means, by recursion on the forest: each event adds its node, text joins the
text before it, and a construct encloses what its own events add to nothing. The stack of frames
computes the same: a whole construct leaves the open frames as they are and adds its nodes to the
innermost one (`foldl_take_eventsOf`), so that nested events leave no frame open and their document
is the content of their forest (`ofEvents_of_isNested`).
-/

namespace IconMarkup.Markdown

/-- Nodes with running text after them. It joins the running text that they end in. -/
def appendText (content : String) (nodes : List Node) : List Node :=
  match nodes.getLast? with
  | some (.text before) => nodes.dropLast ++ [.text (before ++ content)]
  | _ => if content.isEmpty then nodes else nodes ++ [.text content]

/-- Nodes with what an event adds that stands for itself. -/
def Event.appendTo (nodes : List Node) : Event → List Node
  | .start _ => nodes
  | .finish _ => nodes
  | .text content => appendText content nodes
  | .softBreak => appendText "\n" nodes
  | .code content => nodes ++ [.element "code" .empty [.text content]]
  | .html content => nodes ++ [.raw content]
  | .inlineHtml content => nodes ++ [.raw content]
  | .inlineMath content => nodes ++ [mathNode "span" "math-inline" content]
  | .displayMath content => nodes ++ [mathNode "div" "math-display" content]
  | .hardBreak => nodes ++ [.element "br" .empty []]
  | .rule => nodes ++ [.element "hr" .empty []]
  | .footnoteReference label => nodes ++ [footnoteNode label]
  | .checkBox checked => nodes ++ [checkBoxNode checked]

/-- The nodes that a construct makes of its content; `inHead` tells whether it stands inside a table
head. -/
def Tag.enclose (inHead : Bool) (content : List Node) : Tag → List Node
  | .codeBlock info =>
    [.element "pre" .empty [.element "code" (codeElement info).attributes content]]
  | .tableHead => [.element "thead" .empty [.element "tr" .empty content]]
  | .tableCell => [.element (if inHead then "th" else "td") .empty content]
  | .htmlBlock => content
  | .metadataBlock => []
  | .image destination title =>
    [.element "img" ((Tag.image destination title).element.attributes.set "alt"
      (String.ofList (textContents content))) []]
  | tag => [.element tag.element.tag tag.element.attributes content]

mutual

/-- Nodes with what a tree of events adds; `inHead` tells whether it stands inside a table head. -/
def EventTree.appendTo (inHead : Bool) (nodes : List Node) : EventTree → List Node
  | .single event _ => event.appendTo nodes
  | .construct tag inside =>
    nodes ++ tag.enclose inHead (appendForest (tag = .tableHead || inHead) [] inside)

/-- Nodes with what a forest of events adds; `inHead` tells whether it stands inside a table
head. -/
def appendForest (inHead : Bool) (nodes : List Node) : List EventTree → List Node
  | [] => nodes
  | tree :: rest => appendForest inHead (tree.appendTo inHead nodes) rest

end

/-! ### Frames -/

/-- Changes the nodes of the innermost construct, in their order in the document. -/
def Builder.revise (change : List Node → List Node) (builder : Builder) : Builder :=
  builder.modify fun nodes => (change nodes.reverse).reverse

section

variable {builder : Builder} {change : List Node → List Node}

@[simp]
theorem Builder.inTableHead_revise : (builder.revise change).inTableHead = builder.inTableHead := by
  rw [revise, modify]
  split <;> rfl

theorem Builder.revise_revise (change next : List Node → List Node) (builder : Builder) :
    (builder.revise change).revise next = builder.revise fun nodes => next (change nodes) := by
  rcases builder with ⟨_ | ⟨frame, outer⟩, nodes, inHead⟩ <;> simp [revise, modify]

private theorem Builder.revise_id (builder : Builder) :
    builder.revise (fun nodes => nodes) = builder := by
  rcases builder with ⟨_ | ⟨frame, outer⟩, nodes, inHead⟩ <;> simp [revise, modify]

theorem Builder.add_eq (node : Node) : builder.add node = builder.revise (· ++ [node]) := by
  simp [add, revise]

private theorem reverse_joinText {content : String} (h : content.isEmpty = false)
    (nodes : List Node) :
    (joinText content nodes).reverse = appendText content nodes.reverse := by
  rcases nodes with _ | ⟨last, rest⟩
  · simp [joinText, appendText, h]
  · cases last <;> simp [joinText, appendText, h]

theorem appendText_of_isEmpty {content : String} (h : content.isEmpty = true) (nodes : List Node) :
    appendText content nodes = nodes := by
  have hempty : content = "" := String.isEmpty_iff.mp h
  rw [appendText]
  split
  · rename_i before hlast
    obtain ⟨earlier, rfl⟩ := List.getLast?_eq_some_iff.mp hlast
    rw [hempty, String.append_empty, List.dropLast_concat]
  · rw [if_pos h]

theorem Builder.addText_eq (content : String) :
    builder.addText content = builder.revise (appendText content) := by
  rw [addText]
  split
  · rename_i hempty
    rw [funext (appendText_of_isEmpty hempty), revise_id]
  · rename_i hcontent
    rw [revise]
    congr 1
    funext nodes
    rw [← reverse_joinText (by simpa using hcontent), List.reverse_reverse]

/-- An event that stands for itself changes the innermost construct only. -/
private theorem Builder.take_of_isSingle {event : Event} (h : event.isSingle = true) :
    builder.take event = builder.revise event.appendTo := by
  cases event with
  | start tag => cases h
  | finish kind => cases h
  | text content => exact addText_eq content
  | softBreak => exact addText_eq "\n"
  | _ => exact add_eq _

private theorem Builder.inTableHead_start (tag : Tag) :
    (builder.start tag).inTableHead = (decide (tag = .tableHead) || builder.inTableHead) := by
  cases tag <;> rfl

private theorem Tag.children_element (tag : Tag) : tag.element.children = [] := by
  cases tag with
  | list start => cases start <;> rfl
  | _ => rfl

/-- Only the element of an image has the name that makes a frame flatten its content. -/
private theorem Tag.name_element_ne {tag : Tag}
    (h : ∀ destination title, tag ≠ .image destination title) :
    tag.element.tag ≠ "img" := by
  cases tag with
  | heading level id =>
    intro hname
    simpa [Tag.element, Element.leaf] using congrArg (·.toList.head?) hname
  | list start => cases start <;> simp [Tag.element, Element.leaf]
  | image destination title => exact absurd rfl (h destination title)
  | _ => simp [Tag.element, Element.leaf]

/-- A frame that is closed adds its nodes to the construct around it. -/
private theorem Builder.close_revise_opened (element : Element) (kind : FrameKind) :
    ((builder.opened element kind).revise change).close =
      builder.revise (· ++ (Frame.nodes { element := { element with
        children := (change element.children.reverse).reverse }, kind }).reverse) := by
  simp [opened, revise, modify, close]

/-- The frame of an element that is no image becomes the element with what was added to it. -/
private theorem Builder.close_revise_leaf (builder : Builder) (change : List Node → List Node)
    {element : Element} (hleaf : element.children = []) (himage : element.tag ≠ "img") :
    ((builder.opened element .element).revise change).close =
      builder.revise (· ++ [.element element.tag element.attributes (change [])]) := by
  rw [close_revise_opened]
  simp [Frame.nodes, Frame.finished, himage, hleaf, Element.toNode]

/-- The frame of a construct that is no image becomes the element of the construct. -/
private theorem Builder.close_revise_construct (builder : Builder) (change : List Node → List Node)
    (tag : Tag) (h : ∀ destination title, tag ≠ .image destination title) :
    ((builder.opened tag.element .element).revise change).close =
      builder.revise (· ++ [.element tag.element.tag tag.element.attributes (change [])]) :=
  close_revise_leaf builder change tag.children_element (Tag.name_element_ne h)

/-- A construct that is finished adds what it makes of its content to the construct around it. -/
private theorem Builder.finish_start (tag : Tag)
    (hhead : tag = .tableHead → builder.inTableHead = false) :
    ((builder.start tag).revise change).finish tag.kind =
      builder.revise (· ++ tag.enclose builder.inTableHead (change [])) := by
  cases tag with
  | codeBlock info =>
    have hleaf : (codeElement info).children = [] := by cases info <;> rfl
    have htag : (codeElement info).tag = "code" := by cases info <;> rfl
    -- the frame of the code is closed first, then the one around it
    have hcode := close_revise_leaf (builder.opened (Tag.codeBlock info).element .element) change
      hleaf (by simp [htag])
    rw [htag] at hcode
    exact (congrArg close hcode).trans
      (close_revise_construct builder _ (.codeBlock info) (by simp))
  | tableHead =>
    rcases builder with ⟨frames, nodes, inHead⟩
    obtain rfl : inHead = false := hhead rfl
    have hrow : ((((Builder.mk frames nodes false).opened Tag.tableHead.element .element).opened
        Tag.tableRow.element .element).revise change).close = _ :=
      close_revise_construct _ change .tableRow (by simp)
    exact (congrArg close hrow).trans
      (close_revise_construct ⟨frames, nodes, false⟩ _ .tableHead (by simp))
  | tableCell =>
    rcases builder with ⟨frames, nodes, inHead⟩
    cases inHead with
    | false => exact close_revise_construct _ change .tableCell (by simp)
    | true => exact close_revise_leaf _ change rfl (by simp [Element.leaf])
  | htmlBlock =>
    refine (close_revise_opened _ _).trans ?_
    simp [Frame.nodes, Tag.enclose, Tag.children_element]
  | metadataBlock =>
    refine (close_revise_opened _ _).trans ?_
    simp [Frame.nodes, Tag.enclose]
  | image destination title =>
    refine (close_revise_opened _ _).trans ?_
    simp [Frame.nodes, Frame.finished, Tag.enclose, Tag.element, Element.leaf, Element.toNode,
      Element.setAttribute, Element.textContent]
  | _ => exact close_revise_construct _ change _ (by simp)

end

/-! ### The stack and the forest -/

mutual

/-- Taking the events of a tree adds its content to the innermost construct, and leaves everything
else as it was. -/
theorem EventTree.foldl_take : ∀ (tree : EventTree) {builder : Builder},
    tree.headsApart builder.inTableHead = true →
    tree.events.foldl Builder.take builder =
      builder.revise fun nodes => tree.appendTo builder.inTableHead nodes
  | .single event hsingle, builder, _ => Builder.take_of_isSingle hsingle
  | .construct tag inside, builder, h => by
    rw [EventTree.headsApart, Bool.and_eq_true, ← Builder.inTableHead_start] at h
    have hhead : tag = .tableHead → builder.inTableHead = false := fun htag => by
      simpa [htag] using h.1
    rw [EventTree.events, between, List.cons_append, List.foldl_cons, List.foldl_append,
      Builder.take, foldl_take_eventsOf inside h.2, List.foldl_cons, List.foldl_nil, Builder.take,
      Builder.finish_start tag hhead, Builder.inTableHead_start]
    rfl

/-- Taking the events of a forest adds its content to the innermost construct, and leaves everything
else as it was. -/
theorem foldl_take_eventsOf : ∀ (forest : List EventTree) {builder : Builder},
    headsApartIn builder.inTableHead forest = true →
    (eventsOf forest).foldl Builder.take builder =
      builder.revise fun nodes => appendForest builder.inTableHead nodes forest
  | [], builder, _ => (Builder.revise_id builder).symm
  | tree :: rest, builder, h => by
    rw [headsApartIn, Bool.and_eq_true] at h
    have hrest : headsApartIn
        (builder.revise fun nodes => tree.appendTo builder.inTableHead nodes).inTableHead rest =
          true := by
      simpa using h.2
    rw [eventsOf, List.foldl_append, EventTree.foldl_take tree h.1, foldl_take_eventsOf rest hrest,
      Builder.revise_revise, Builder.inTableHead_revise]
    rfl

end

/-- Nested events can be read as a forest in exactly one way. When all of them have been taken, no
construct is open, and the document is the content of the forest. -/
theorem ofEvents_of_isNested {events : List Event} (h : isNested [] events = true) :
    ∃ forest, (∀ other, eventsOf other = events ↔ other = forest) ∧
      (events.foldl Builder.take {}).frames = [] ∧
      Document.ofEvents events = .ofNodes (appendForest false [] forest) := by
  obtain ⟨forest, rfl, happart⟩ := exists_eventsOf_eq h
  have htaken : (eventsOf forest).foldl Builder.take {} =
      Builder.revise (fun nodes => appendForest false nodes forest) {} :=
    foldl_take_eventsOf forest happart
  have hframes : ((eventsOf forest).foldl Builder.take {}).frames = [] := by
    rw [htaken]
    rfl
  refine ⟨forest, fun other => eventsOf_injective.eq_iff, hframes, ?_⟩
  rw [Document.ofEvents, Builder.toDocument, hframes, htaken]
  exact congrArg Document.ofNodes (List.reverse_reverse _)

/-- The events of text around an HTML block, and of a table head with a picture in its cell. -/
def pictureInHead : List Event :=
  [.text "a", .start .htmlBlock, .text "b", .finish .htmlBlock, .softBreak, .start .tableHead,
    .start .tableCell, .start (.image "c.png" ""), .text "c", .finish .image, .finish .tableCell,
    .finish .tableHead]

/-- The line end joins the text inside the HTML block, which has not joined the text before it; the
cell is one of a head, and the picture has its text as an attribute. -/
theorem ofEvents_of_isNested_pictureInHead :
    isNested [] pictureInHead = true ∧
      Document.ofEvents pictureInHead = .ofNodes [.text "a", .text "b\n",
        .element "thead" .empty [.element "tr" .empty [.element "th" .empty
          [.element "img" ⟨[("src", "c.png"), ("alt", "c")]⟩ []]]]] := by
  have hnested : isNested [] pictureInHead = true := by decide
  refine ⟨hnested, ?_⟩
  obtain ⟨forest, hforest, -, hdocument⟩ := ofEvents_of_isNested hnested
  obtain rfl := (hforest [.single (.text "a") rfl, .construct .htmlBlock [.single (.text "b") rfl],
    .single .softBreak rfl, .construct .tableHead [.construct .tableCell
      [.construct (.image "c.png" "") [.single (.text "c") rfl]]]]).mp rfl
  rw [hdocument]
  rfl

end IconMarkup.Markdown
