/-!
# Running text

The text of a paragraph, a heading or a table cell, once it is known what its marks mean.
-/

namespace IconMarkup.Markdown

/-- A part of running text. -/
inductive Inline where
  /-- Plain text. -/
  | text (content : String)
  /-- Code. -/
  | code (content : String)
  /-- An HTML tag. -/
  | html (content : String)
  /-- A line end. -/
  | softBreak
  /-- A line end that shows. -/
  | hardBreak
  /-- The check box of a task. -/
  | checkBox (checked : Bool)
  /-- A reference to a footnote. -/
  | footnote (label : String)
  /-- Emphasis. -/
  | emphasis (content : List Inline)
  /-- Strong emphasis. -/
  | strong (content : List Inline)
  /-- Deleted text. -/
  | strikethrough (content : List Inline)
  /-- A link. -/
  | link (destination title : String) (content : List Inline)
  /-- An image. -/
  | image (destination title : String) (content : List Inline)
  deriving Repr

end IconMarkup.Markdown
