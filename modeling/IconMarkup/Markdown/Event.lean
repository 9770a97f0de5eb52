/-!
# Events

A Markdown text as a flat sequence: each construct with content starts and finishes, and text,
markup and line ends stand in between. Besides what the reader of this library produces there are
events for further constructs, so that a tree can be made of the output of richer readers too.
-/

namespace IconMarkup.Markdown

/-- A construct with content, as it starts. -/
inductive Tag where
  | paragraph
  /-- A heading of a level from 1 to 6. -/
  | heading (level : Nat) (id : Option String)
  | blockQuote
  /-- A code block, with its info string if it is fenced. -/
  | codeBlock (info : Option String)
  | htmlBlock
  /-- A list, with its first number if its items are numbered. -/
  | list (start : Option Nat)
  | item
  | footnoteDefinition (label : String)
  | table
  | tableHead
  | tableRow
  | tableCell
  | emphasis
  | strong
  | strikethrough
  | superscript
  | subscript
  | link (destination title : String)
  | image (destination title : String)
  | definitionList
  | definitionTitle
  | definition
  | metadataBlock
  deriving DecidableEq, Repr

/-- A construct with content, as it finishes. -/
inductive TagKind where
  | paragraph
  | heading
  | blockQuote
  | codeBlock
  | htmlBlock
  | list
  | item
  | footnoteDefinition
  | table
  | tableHead
  | tableRow
  | tableCell
  | emphasis
  | strong
  | strikethrough
  | superscript
  | subscript
  | link
  | image
  | definitionList
  | definitionTitle
  | definition
  | metadataBlock
  deriving DecidableEq, Repr

/-- What finishes a construct. -/
def Tag.kind : Tag → TagKind
  | .paragraph => .paragraph
  | .heading .. => .heading
  | .blockQuote => .blockQuote
  | .codeBlock _ => .codeBlock
  | .htmlBlock => .htmlBlock
  | .list _ => .list
  | .item => .item
  | .footnoteDefinition _ => .footnoteDefinition
  | .table => .table
  | .tableHead => .tableHead
  | .tableRow => .tableRow
  | .tableCell => .tableCell
  | .emphasis => .emphasis
  | .strong => .strong
  | .strikethrough => .strikethrough
  | .superscript => .superscript
  | .subscript => .subscript
  | .link .. => .link
  | .image .. => .image
  | .definitionList => .definitionList
  | .definitionTitle => .definitionTitle
  | .definition => .definition
  | .metadataBlock => .metadataBlock

/-- A step of a Markdown text. -/
inductive Event where
  /-- A construct starts. -/
  | start (tag : Tag)
  /-- The innermost construct finishes. -/
  | finish (kind : TagKind)
  /-- Text. -/
  | text (content : String)
  /-- Code in running text. -/
  | code (content : String)
  /-- A line of an HTML block. -/
  | html (content : String)
  /-- An HTML tag in running text. -/
  | inlineHtml (content : String)
  /-- A formula in running text. -/
  | inlineMath (content : String)
  /-- A formula on its own. -/
  | displayMath (content : String)
  /-- A line end. -/
  | softBreak
  /-- A line end that shows. -/
  | hardBreak
  /-- A thematic break. -/
  | rule
  /-- A reference to a footnote. -/
  | footnoteReference (label : String)
  /-- The check box of a task. -/
  | checkBox (checked : Bool)
  deriving DecidableEq, Repr

end IconMarkup.Markdown
