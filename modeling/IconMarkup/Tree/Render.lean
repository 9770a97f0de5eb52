import IconMarkup.Text.Escape
import IconMarkup.Tree.Node
import IconMarkup.Tree.TagClass

/-!
# Writing trees

The markup of a tree. Running text and attribute values are escaped; raw text and comments are
written as they are. A fragment contributes its children alone, and a void element its start tag
alone.
-/

namespace IconMarkup

/-- An attribute, with the blank before it. -/
def markupAttribute (entry : String × String) : List Char :=
  ' ' :: entry.1.toList ++ '=' :: '"' :: Text.escapeAttribute entry.2.toList ++ ['"']

/-- A start tag. -/
def markupStart (tag : String) (attributes : Attributes) : List Char :=
  '<' :: tag.toList ++ attributes.toList.flatMap markupAttribute ++ ['>']

/-- An end tag. -/
def markupEnd (tag : String) : List Char :=
  '<' :: '/' :: tag.toList ++ ['>']

/-- The markup of an element around the markup of its children. -/
def markupElement (tag : String) (attributes : Attributes) (inside : List Char) : List Char :=
  if tag = fragmentTag then inside
  else if isVoidTag tag then markupStart tag attributes
  else markupStart tag attributes ++ inside ++ markupEnd tag

mutual

/-- The markup of a node. -/
def Node.markup : Node → List Char
  | .element tag attributes children => markupElement tag attributes (markupOf children)
  | .text content => Text.escapeText content.toList
  | .raw content => content.toList
  | .comment content => "<!--".toList ++ content.toList ++ "-->".toList

/-- The markup of a list of nodes, in order. -/
def markupOf : List Node → List Char
  | [] => []
  | node :: rest => node.markup ++ markupOf rest

end

theorem markupOf_append (first second : List Node) :
    markupOf (first ++ second) = markupOf first ++ markupOf second := by
  induction first with
  | nil => rfl
  | cons node rest ih => simp [markupOf, ih]

/-- The markup of a node. -/
def Node.render (node : Node) : String :=
  String.ofList node.markup

/-- The markup of an element. -/
def Element.render (element : Element) : String :=
  element.toNode.render

/-- The markup of a document. -/
def Document.render (document : Document) : String :=
  document.root.render

end IconMarkup
