import IconMarkup.Markdown.Item

/-!
# Blocks

The blocks of a Markdown text. Running text is kept as items until every definition of a label is
known.
-/

namespace IconMarkup.Markdown

/-- Running text: its items and the position where its block ends. -/
structure Running where
  /-- The items. -/
  items : List Item
  /-- Where the block ends. -/
  stop : Nat
  deriving Repr

/-- A line of an HTML block. -/
inductive HtmlPiece where
  /-- The indentation of the first line. -/
  | indentation (content : String)
  /-- Markup. -/
  | markup (content : String)
  deriving DecidableEq, Repr

/-- A block. -/
inductive Block where
  /-- A paragraph. -/
  | paragraph (content : Running)
  /-- A heading. -/
  | heading (level : Nat) (id : Option String) (content : Running)
  /-- A code block, with its info string if it is fenced. -/
  | code (info : Option String) (content : String)
  /-- An HTML block. -/
  | html (pieces : List HtmlPiece)
  /-- A thematic break. -/
  | thematicBreak
  /-- A table. -/
  | table (head : List Running) (rows : List (List Running))
  /-- A quotation. -/
  | quote (children : List Block)
  /-- A list; `start` is the first number if its items are numbered. -/
  | list (tight : Bool) (start : Option Nat) (children : List Block)
  /-- An item of a list whose content is indented by `width` columns. -/
  | item (width : Nat) (children : List Block)
  /-- The definition of a footnote. -/
  | footnote (label : String) (children : List Block)
  /-- The check box of a task without text. -/
  | checkBox (checked : Bool)
  deriving Repr

end IconMarkup.Markdown
