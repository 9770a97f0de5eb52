import IconMarkup.Markdown.Event
import IconMarkup.Tree.Node

/-!
# Trees of events

The document that a sequence of events describes. Every construct that is open is a frame on a
stack, which takes the nodes that come until it finishes. How a finished frame joins its parent
depends on what it is: as an element, as its children alone, or not at all. Text next to running
text joins it, so how a text is cut into events does not show.
-/

namespace IconMarkup.Markdown

/-! ### Frames -/

/-- How a finished frame joins its parent. -/
inductive FrameKind where
  /-- As an element. -/
  | element
  /-- As its children alone. -/
  | transparent
  /-- Not at all. -/
  | discarded
  deriving DecidableEq, Repr

/-- A construct that is open. -/
structure Frame where
  /-- The element that it becomes; its children are given in reverse order. -/
  element : Element
  /-- How it joins its parent. -/
  kind : FrameKind
  deriving Repr

/-- A document that is being made. -/
structure Builder where
  /-- The open constructs, innermost first. -/
  frames : List Frame := []
  /-- The nodes at the top level, the last first. -/
  nodes : List Node := []
  /-- Whether cells belong to the head of a table. -/
  inTableHead : Bool := false
  deriving Repr

/-! ### Nodes of events -/

/-- The element of a construct that is one element. -/
def Tag.element : Tag → Element
  | .paragraph => .leaf "p" []
  | .heading level id => .leaf ("h" ++ toString level) (id.toList.map fun name => ("id", name))
  | .blockQuote => .leaf "blockquote" []
  | .codeBlock _ => .leaf "pre" []
  | .htmlBlock => .leaf "div" []
  | .list none => .leaf "ul" []
  | .list (some start) =>
    .leaf "ol" (if start = 1 then [] else [("start", toString start)])
  | .item => .leaf "li" []
  | .footnoteDefinition label => .leaf "div" [("class", "footnote"), ("id", "fn-" ++ label)]
  | .table => .leaf "table" []
  | .tableHead => .leaf "thead" []
  | .tableRow => .leaf "tr" []
  | .tableCell => .leaf "td" []
  | .emphasis => .leaf "em" []
  | .strong => .leaf "strong" []
  | .strikethrough => .leaf "del" []
  | .superscript => .leaf "sup" []
  | .subscript => .leaf "sub" []
  | .link destination title => .leaf "a" (("href", destination) :: titled title)
  | .image destination title => .leaf "img" (("src", destination) :: titled title)
  | .definitionList => .leaf "dl" []
  | .definitionTitle => .leaf "dt" []
  | .definition => .leaf "dd" []
  | .metadataBlock => .leaf "div" []
where
  /-- The attribute for a title, unless it is empty. -/
  titled (title : String) : List (String × String) :=
    if title.isEmpty then [] else [("title", title)]

/-- The element of the code in a code block. -/
def codeElement (info : Option String) : Element :=
  match info with
  | some name => .leaf "code" (if name.isEmpty then [] else [("class", "language-" ++ name)])
  | none => .leaf "code" []

/-- The reference to a footnote. -/
def footnoteNode (label : String) : Node :=
  .element "sup" (.ofList [("class", "footnote-ref")])
    [.element "a" (.ofList [("href", "#fn-" ++ label), ("id", "fnref-" ++ label)])
      [.text ("[" ++ label ++ "]")]]

/-- The check box of a task. -/
def checkBoxNode (checked : Bool) : Node :=
  .element "input" (.ofList (("type", "checkbox") :: ("disabled", "") ::
    if checked then [("checked", "")] else [])) []

/-- A formula. -/
def mathNode (tag kind content : String) : Node :=
  .element tag (.ofList [("class", "math " ++ kind)]) [.text content]

/-- Adds text after nodes that are given in reverse order; it joins running text. -/
def joinText (content : String) : List Node → List Node
  | .text before :: rest => .text (before ++ content) :: rest
  | nodes => .text content :: nodes

/-! ### Builders -/

namespace Frame

/-- The element of a finished frame. An image has no children: its text becomes the alternative
text. -/
def finished (frame : Frame) : Element :=
  let element := { frame.element with children := frame.element.children.reverse }
  if element.tag = "img" then
    { element.setAttribute "alt" element.textContent with children := [] }
  else element

/-- The nodes that a finished frame adds to its parent, in reverse order. -/
def nodes (frame : Frame) : List Node :=
  match frame.kind with
  | .element => [frame.finished.toNode]
  | .transparent => frame.element.children
  | .discarded => []

end Frame

namespace Builder

/-- Changes the nodes of the innermost construct, which are given in reverse order. -/
def modify (change : List Node → List Node) (builder : Builder) : Builder :=
  match builder.frames with
  | [] => { builder with nodes := change builder.nodes }
  | frame :: outer =>
    let element := { frame.element with children := change frame.element.children }
    { builder with frames := { frame with element } :: outer }

/-- Adds a node. -/
def add (builder : Builder) (node : Node) : Builder :=
  builder.modify (node :: ·)

/-- Adds text. -/
def addText (builder : Builder) (content : String) : Builder :=
  if content.isEmpty then builder else builder.modify (joinText content)

/-- Opens a construct. -/
def opened (builder : Builder) (element : Element) (kind : FrameKind) : Builder :=
  { builder with frames := ⟨element, kind⟩ :: builder.frames }

/-- Closes the innermost construct, if one is open. -/
def close (builder : Builder) : Builder :=
  match builder.frames with
  | [] => builder
  | frame :: outer => { builder with frames := outer }.modify (frame.nodes ++ ·)

/-- Starts a construct. -/
def start (builder : Builder) : Tag → Builder
  | .codeBlock info =>
    (builder.opened (Tag.codeBlock info).element .element).opened (codeElement info) .element
  | .htmlBlock => builder.opened Tag.htmlBlock.element .transparent
  | .metadataBlock => builder.opened Tag.metadataBlock.element .discarded
  | .tableHead =>
    ({ builder with inTableHead := true }.opened Tag.tableHead.element .element).opened
      Tag.tableRow.element .element
  | .tableCell =>
    builder.opened (if builder.inTableHead then .leaf "th" [] else Tag.tableCell.element) .element
  | tag => builder.opened tag.element .element

/-- Finishes a construct. -/
def finish (builder : Builder) : TagKind → Builder
  | .codeBlock => builder.close.close
  | .tableHead => { builder with inTableHead := false }.close.close
  | _ => builder.close

/-- Takes an event. -/
def take (builder : Builder) : Event → Builder
  | .start tag => builder.start tag
  | .finish kind => builder.finish kind
  | .text content => builder.addText content
  | .code content => builder.add (.element "code" .empty [.text content])
  | .html content => builder.add (.raw content)
  | .inlineHtml content => builder.add (.raw content)
  | .inlineMath content => builder.add (mathNode "span" "math-inline" content)
  | .displayMath content => builder.add (mathNode "div" "math-display" content)
  | .softBreak => builder.addText "\n"
  | .hardBreak => builder.add (.element "br" .empty [])
  | .rule => builder.add (.element "hr" .empty [])
  | .footnoteReference label => builder.add (footnoteNode label)
  | .checkBox checked => builder.add (checkBoxNode checked)

/-- Closes a number of constructs. -/
def closeMany : Nat → Builder → Builder
  | 0, builder => builder
  | n + 1, builder => closeMany n builder.close

/-- Closes what is still open and gives the document. -/
def toDocument (builder : Builder) : Document :=
  .ofNodes (closeMany builder.frames.length builder).nodes.reverse

end Builder

end IconMarkup.Markdown

namespace IconMarkup

/-- The document that events describe. -/
def Document.ofEvents (events : List Markdown.Event) : Document :=
  (events.foldl Markdown.Builder.take {}).toDocument

end IconMarkup
