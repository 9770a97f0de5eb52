import IconMarkup.Html.SourceNode
import IconMarkup.Text.Blank
import IconMarkup.Text.Lead
import IconMarkup.Text.Unescape
import IconMarkup.Tree.Node

/-!
# Documents from HTML text

`Document.ofHtml` reads an HTML fragment. Tags are lower-cased, running text and attribute values
are decoded, comments are kept, and the bodies of raw text elements are written back as they were.
A document type declaration at the start is kept as it is, as raw text before everything else.
-/

namespace IconMarkup.Html

/-- A comment without its delimiters, or the whole text if it lacks one of them. -/
def commentBody (source : List Char) : List Char :=
  match Text.afterLead? "<!--".toList source with
  | none => source
  | some rest => match Text.afterLead? "-->".toList.reverse rest.reverse with
    | none => source
    | some body => body.reverse

/-- The attributes of an element: values are decoded, and an attribute without a value is empty. -/
def decodeAttributes (attributes : List SourceAttribute) : Attributes :=
  .ofList (attributes.map fun entry =>
    (String.ofList entry.1, String.ofList (Text.unescape (entry.2.getD []))))

/-- Raw text, unless it is empty. -/
def rawText (content : List Char) : List Node :=
  if content.isEmpty then [] else [.raw (String.ofList content)]

mutual

/-- The node of a document for a node of an HTML text. -/
def SourceNode.toNode : SourceNode → Node
  | .element name attributes children =>
    let tag := (String.ofList name).toLower
    .element tag (decodeAttributes attributes)
      (if isRawTextTag tag then rawText (sourceOf children) else toNodes children)
  | .text content => .text (String.ofList (Text.unescape content))
  | .comment source => .comment (String.ofList (commentBody source))

/-- The nodes of a document for nodes of an HTML text. -/
def toNodes : List SourceNode → List Node
  | [] => []
  | node :: rest => node.toNode :: toNodes rest

end

/-- What a document type declaration begins with. -/
def doctypeLead : String := "<!doctype"

/-- Cuts after a document type declaration at the start of a text, white space before it included.
The first part is empty if there is none. -/
def splitDoctype (cs : List Char) : List Char × List Char :=
  let trimmed := Text.trimStart cs
  if isWordInAnyCase doctypeLead (trimmed.take doctypeLead.length) then
    match trimmed.dropWhile (· != '>') with
    | close :: rest =>
      (cs.takeWhile Text.isBlank ++ trimmed.takeWhile (· != '>') ++ [close], rest)
    | [] => ([], cs)
  else ([], cs)

end IconMarkup.Html

namespace IconMarkup

/-- The document of an HTML fragment. -/
def Document.ofHtml (text : String) : Document :=
  let (doctype, body) := Html.splitDoctype text.toList
  .ofNodes (Html.rawText doctype ++ Html.toNodes (Html.SourceNode.ofText body))

end IconMarkup
