/-!
# Markdown extensions

Which extensions of CommonMark are recognised.
-/

namespace IconMarkup.Markdown

/-- The extensions that can be switched on and off. -/
structure Options where
  /-- Tables with a row of hyphens under their head. -/
  tables : Bool := true
  /-- References to notes and their definitions. -/
  footnotes : Bool := true
  /-- Deleted text between tildes. -/
  strikethrough : Bool := true
  /-- List items that begin with a check box. -/
  taskLists : Bool := true
  /-- Attributes in braces after the text of a heading. -/
  headingAttributes : Bool := true
  deriving DecidableEq, Repr

/-- Every extension. -/
def Options.all : Options := ⟨true, true, true, true, true⟩

/-- CommonMark alone. -/
def Options.none : Options := ⟨false, false, false, false, false⟩

end IconMarkup.Markdown
