import IconMarkup.Html.Token
import IconMarkup.Tree.TagClass

/-!
# Trees of HTML text

The tree that the tokens of an HTML text describe, with names and values spelled as in the text. A
start tag opens an element unless it closes itself or its name never has content. An end tag closes
the innermost open element if it has the same name and is ignored otherwise, and at the end of the
text all open elements are closed.
-/

namespace IconMarkup.Html

/-- A node of an HTML text. -/
inductive SourceNode where
  /-- An element. -/
  | element (name : List Char) (attributes : List SourceAttribute) (children : List SourceNode)
  /-- Text outside tags. -/
  | text (content : List Char)
  /-- A comment with its delimiters. -/
  | comment (source : List Char)
  deriving Repr

/-- The names whose start tag opens nothing. -/
def opensNothing (name : List Char) : Bool :=
  ["area", "base", "br", "col", "embed", "hr", "img", "input", "keygen", "link", "meta", "param",
    "source", "track", "wbr"].contains (String.ofList name)

/-- The value of the last attribute of a name, if that one has a value. -/
def lastValue (name : String) (attributes : List SourceAttribute) : List SourceAttribute :=
  match (attributes.filter (·.1 = name.toList)).getLast? with
  | some (key, some value) => [(key, some value)]
  | _ => []

/-- The attributes of an element in their order: `id` and `class` come last, each only if its last
occurrence has a value. The order of the others is settled only while there are at most two of them;
of more it is any order, here that of the text. -/
def arrange (attributes : List SourceAttribute) : List SourceAttribute :=
  (attributes.filter fun entry => entry.1 ≠ "id".toList ∧ entry.1 ≠ "class".toList) ++
    lastValue "id" attributes ++ lastValue "class" attributes

/-- An element that is still open, with the nodes before it in reverse order. -/
structure OpenElement where
  /-- The name in its start tag. -/
  name : List Char
  /-- The attributes of its start tag. -/
  attributes : List SourceAttribute
  /-- The nodes before the element, the nearest first. -/
  before : List SourceNode

/-- Closes all open elements, innermost first, around the nodes inside the innermost one, which are
given in reverse order. -/
def closeAll : List OpenElement → List SourceNode → List SourceNode
  | [], inside => inside.reverse
  | innermost :: outer, inside =>
    closeAll outer
      (.element innermost.name innermost.attributes inside.reverse :: innermost.before)

/-- The nodes of tokens that stand inside open elements, innermost first, after nodes that are
given in reverse order. -/
def nest : List OpenElement → List SourceNode → List Token → List SourceNode
  | opened, inside, [] => closeAll opened inside
  | opened, inside, .text content :: rest => nest opened (.text content :: inside) rest
  | opened, inside, .comment source :: rest => nest opened (.comment source :: inside) rest
  | opened, inside, .start name attributes selfClosing :: rest =>
    if selfClosing || opensNothing name then
      nest opened (.element name (arrange attributes) [] :: inside) rest
    else nest (⟨name, arrange attributes, inside⟩ :: opened) [] rest
  | [], inside, .finish _ :: rest => nest [] inside rest
  | innermost :: outer, inside, .finish name :: rest =>
    if innermost.name = name then
      nest outer
        (.element innermost.name innermost.attributes inside.reverse :: innermost.before) rest
    else nest (innermost :: outer) inside rest

/-- The nodes at the top level of an HTML text. -/
def SourceNode.ofText (cs : List Char) : List SourceNode :=
  nest [] [] (tokens cs)

/-- An attribute with the blank before it. -/
def sourceAttribute : SourceAttribute → List Char
  | (name, some value) => ' ' :: name ++ '=' :: '"' :: value ++ ['"']
  | (name, none) => ' ' :: name

/-- The names whose elements are written as a start tag alone. -/
def writtenAlone (name : List Char) : Bool :=
  opensNothing name || name = "command".toList

mutual

/-- A node written back, with values as in the text. -/
def SourceNode.source : SourceNode → List Char
  | .element name attributes children =>
    let start := '<' :: name ++ attributes.flatMap sourceAttribute ++ ['>']
    if writtenAlone name then start
    else start ++ sourceOf children ++ '<' :: '/' :: name ++ ['>']
  | .text content => content
  | .comment source => source

/-- A list of nodes written back, in order. -/
def sourceOf : List SourceNode → List Char
  | [] => []
  | node :: rest => node.source ++ sourceOf rest

end

end IconMarkup.Html
