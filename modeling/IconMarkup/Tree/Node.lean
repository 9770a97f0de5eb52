import IconMarkup.Text.Blank
import IconMarkup.Tree.Attributes

/-!
# Document trees

A document is an element that owns a tree of nodes. Text comes in two kinds: running text, whose
special characters are escaped when it is written, and raw text, which is written as it is (bodies
of scripts and styles, embedded markup). A fragment is an element that stands for its children
alone; it is the root of every document that is read.
-/

namespace IconMarkup

/-- A node of a document tree. -/
inductive Node where
  /-- An element with its attributes and children. -/
  | element (tag : String) (attributes : Attributes) (children : List Node)
  /-- Text that is escaped when written. -/
  | text (content : String)
  /-- Text that is written as it is. -/
  | raw (content : String)
  /-- A comment, without its delimiters. -/
  | comment (content : String)
  deriving Repr

/-- The tag of an element that stands for its children alone. -/
def fragmentTag : String := "#fragment"

/-- An element on its own. -/
structure Element where
  /-- The name of the element. -/
  tag : String
  /-- The attributes of its start tag. -/
  attributes : Attributes
  /-- The nodes inside. -/
  children : List Node
  deriving Repr

/-- A document: the element at its root. -/
structure Document where
  /-- The element that owns the tree. -/
  root : Element
  deriving Repr

mutual

/-- The text of a node and everything inside it; comments have none. -/
def Node.textContent : Node → List Char
  | .element _ _ children => textContents children
  | .text content => content.toList
  | .raw content => content.toList
  | .comment _ => []

/-- The text of a list of nodes, in order. -/
def textContents : List Node → List Char
  | [] => []
  | node :: rest => node.textContent ++ textContents rest

end

theorem textContents_append (first second : List Node) :
    textContents (first ++ second) = textContents first ++ textContents second := by
  induction first with
  | nil => rfl
  | cons node rest ih => simp [textContents, ih]

namespace Element

/-- The element as a node. -/
def toNode (element : Element) : Node :=
  .element element.tag element.attributes element.children

/-- An element without children. -/
def leaf (tag : String) (attributes : List (String × String)) : Element :=
  ⟨tag, .ofList attributes, []⟩

/-- Whether the element stands for its children alone. -/
def isFragment (element : Element) : Bool :=
  element.tag = fragmentTag

/-- The class names of the element: the words of its `class` attribute. -/
def classes (element : Element) : List String :=
  Text.words ((element.attributes.get? "class").getD "")

/-- Adds a node after the children. -/
def push (element : Element) (node : Node) : Element :=
  { element with children := element.children ++ [node] }

/-- Sets an attribute. -/
def setAttribute (element : Element) (name value : String) : Element :=
  { element with attributes := element.attributes.set name value }

/-- All text inside the element. -/
def textContent (element : Element) : String :=
  String.ofList (textContents element.children)

/-- Changes the element that is reached by following child indexes; `none` if they lead to no
element. -/
def modifyAt? (change : Element → Element) : List Nat → Element → Option Element
  | [], element => some (change element)
  | index :: path, element => do
    match ← element.children[index]? with
    | .element tag attributes children =>
      let child ← modifyAt? change path ⟨tag, attributes, children⟩
      return { element with children := element.children.set index child.toNode }
    | _ => none

/-- The element that is reached by following child indexes. -/
def at? : List Nat → Element → Option Element
  | [], element => some element
  | index :: path, element => do
    match ← element.children[index]? with
    | .element tag attributes children => at? path ⟨tag, attributes, children⟩
    | _ => none

end Element

namespace Document

/-- The document with these nodes at its top level. -/
def ofNodes (nodes : List Node) : Document :=
  ⟨⟨fragmentTag, .empty, nodes⟩⟩

/-- All text of the document. -/
def textContent (document : Document) : String :=
  document.root.textContent

end Document

end IconMarkup
