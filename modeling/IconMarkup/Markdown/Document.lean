import IconMarkup.Markdown.Reader
import IconMarkup.Markdown.Tree

/-!
# Documents from Markdown text
-/

namespace IconMarkup

/-- The document of a Markdown text. -/
def Document.ofMarkdown (options : Markdown.Options) (text : String) : Document :=
  .ofEvents (Markdown.events options text)

end IconMarkup
