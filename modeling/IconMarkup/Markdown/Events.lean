import IconMarkup.Markdown.Block
import IconMarkup.Markdown.Event
import IconMarkup.Markdown.RunningText

/-!
# Events of blocks

Blocks and running text in the order in which they are read, each construct between its start and
its finish. The paragraphs of a tight list are no constructs of their own.
-/

namespace IconMarkup.Markdown

/-- The events of a construct around the events of its content. -/
def between (tag : Tag) (content : List Event) : List Event :=
  .start tag :: content ++ [.finish tag.kind]

mutual

/-- The events of a part of running text. -/
def Inline.events : Inline → List Event
  | .text content => [.text content]
  | .code content => [.code content]
  | .html content => [.inlineHtml content]
  | .softBreak => [.softBreak]
  | .hardBreak => [.hardBreak]
  | .checkBox checked => [.checkBox checked]
  | .footnote label => [.footnoteReference label]
  | .emphasis content => between .emphasis (inlineEvents content)
  | .strong content => between .strong (inlineEvents content)
  | .strikethrough content => between .strikethrough (inlineEvents content)
  | .link destination title content =>
    between (.link destination title) (inlineEvents content)
  | .image destination title content =>
    between (.image destination title) (inlineEvents content)

/-- The events of running text. -/
def inlineEvents : List Inline → List Event
  | [] => []
  | inline :: rest => inline.events ++ inlineEvents rest

end

/-- What the events of blocks depend on. -/
structure EventContext where
  /-- The text. -/
  source : Source
  /-- Whether footnotes are read. -/
  footnotes : Bool
  /-- The destination and the title of a defined label. -/
  link? : String → Option (String × String)
  /-- Whether a footnote has a definition. -/
  hasFootnote : String → Bool

/-- A step through a text during which labels are looked up: it changes how much of the targets of
defined labels may still be repeated, in bytes. -/
abbrev Rationed := StateM Nat

/-- The events of running text inside containers. -/
def Running.events (context : EventContext) (containers : List Container) (inTable : Bool)
    (running : Running) : Rationed (List Event) := fun allowance =>
  let text : TextContext := {
    source := context.source
    footnotes := context.footnotes
    containers
    inTable
    stop := running.stop
    link? := context.link?
    hasFootnote := context.hasFootnote }
  let (inlines, left) := text.settle allowance running.items
  (inlineEvents inlines, left)

/-- The events of a piece of an HTML block. -/
def HtmlPiece.event : HtmlPiece → Event
  | .indentation content => .text content
  | .markup content => .html content

/-- The events of the cells of a row. -/
def cellEvents (context : EventContext) (containers : List Container) :
    List Running → Rationed (List Event)
  | [] => return []
  | cell :: rest => do
    let inside ← cell.events context containers true
    return between .tableCell inside ++ (← cellEvents context containers rest)

/-- The events of the rows of a table. -/
def rowEvents (context : EventContext) (containers : List Container) :
    List (List Running) → Rationed (List Event)
  | [] => return []
  | row :: rest => do
    let inside ← cellEvents context containers row
    return between .tableRow inside ++ (← rowEvents context containers rest)

mutual

/-- The events of a block inside containers, the innermost of which is or is not an item of a tight
list. -/
def Block.events (context : EventContext) (containers : List Container) (tight : Bool) :
    Block → Rationed (List Event)
  | .paragraph content => do
    let inside ← content.events context containers false
    return if tight then inside else between .paragraph inside
  | .heading level id content => do
    return between (.heading level id) (← content.events context containers false)
  | .code info content => return between (.codeBlock info) [.text content]
  | .html pieces => return between .htmlBlock (pieces.map HtmlPiece.event)
  | .thematicBreak => return [.rule]
  | .table head rows => do
    let head ← cellEvents context containers head
    return between .table (between .tableHead head ++ (← rowEvents context containers rows))
  | .quote children => do
    return between .blockQuote (← blockEvents context (containers ++ [.quote]) false children)
  | .list tight start children => do
    return between (.list start) (← blockEvents context containers tight children)
  | .item width children => do
    return between .item (← blockEvents context (containers ++ [.item width]) tight children)
  | .footnote label children => do
    return between (.footnoteDefinition label)
      (← blockEvents context (containers ++ [.footnote]) false children)
  | .checkBox checked => return [.checkBox checked]

/-- The events of blocks, in order. -/
def blockEvents (context : EventContext) (containers : List Container) (tight : Bool) :
    List Block → Rationed (List Event)
  | [] => return []
  | block :: rest => do
    let first ← block.events context containers tight
    return first ++ (← blockEvents context containers tight rest)

end

end IconMarkup.Markdown
