import IconMarkup.Files.Path
import IconMarkup.Html.Document
import IconMarkup.Markdown.Document

/-!
# Formats of documents

The formats that documents are read from, and which one the extension of a file name stands for.
-/

namespace IconMarkup

/-- A format of documents. -/
inductive DocumentFormat where
  /-- HTML. -/
  | html
  /-- Markdown. -/
  | markdown
  deriving DecidableEq, Repr

namespace DocumentFormat

/-- The name of a format. -/
def name : DocumentFormat → String
  | html => "html"
  | markdown => "markdown"

/-- The format with a name. -/
def ofName? (name : String) : Option DocumentFormat :=
  if name = "html" then some html else if name = "markdown" then some markdown else none

/-- The lower case of a character, as far as it is an ASCII letter: the Kelvin sign is the only
character outside ASCII whose lower case is one by itself. -/
def lowerLetter (c : Char) : Char :=
  if c = '\u212a' then 'k' else c.toLower

/-- The format that an extension stands for, whatever its case. -/
def ofExtension? (extension : String) : Option DocumentFormat :=
  let lower := String.ofList (extension.toList.map lowerLetter)
  if lower = "html" ∨ lower = "htm" then some html
  else if lower = "md" ∨ lower = "markdown" then some markdown
  else none

/-- The format that the file name of a path stands for. -/
def ofPath? (path : Files.Path) : Option DocumentFormat := do
  ofExtension? (← path.extension?)

/-- Reads a document. -/
def read (format : DocumentFormat) (options : Markdown.Options) (text : String) : Document :=
  match format with
  | html => .ofHtml text
  | markdown => .ofMarkdown options text

end DocumentFormat

end IconMarkup
