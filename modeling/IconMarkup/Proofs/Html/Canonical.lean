import Mathlib.Data.List.Chain
import IconMarkup.Html.SourceNode
import IconMarkup.Tree.Node

/-!
# Canonical documents

`Document.Canonical` singles out the documents that markup can express without loss: text is
running text, is never empty and never stands next to other text; comments hold nothing that ends
them early; names of tags and attributes are plain, and no attribute is named twice. Nothing is
asked of the text itself or of attribute values.

Reading markup may move the attributes of an element: `id` and `class` come last. `Node.arranged`
moves them in this way throughout a tree, and `Node.Agrees` is equality up to the order of
attributes; a tree agrees with its arranged form (`nodesAgree_arrangedNodes`).
-/

namespace IconMarkup.Html

/-! ### Names -/

/-- A lower-case letter, a digit or a hyphen. -/
def isPlainChar (c : Char) : Bool :=
  c.isLower || c.isDigit || c == '-'

/-- Whether a name is a lower-case letter and then lower-case letters, digits and hyphens. -/
def isPlainName (name : String) : Bool :=
  match name.toList with
  | [] => false
  | first :: rest => first.isLower && rest.all isPlainChar

/-- What a comment must be to end where it is meant to end. -/
structure IsPlainComment (content : List Char) : Prop where
  nonempty : content ≠ []
  noBracketFirst : content.head? ≠ some '>'
  noHyphenLast : content.getLast? ≠ some '-'
  noHyphens : ¬ ['-', '-'] <:+: content

/-- What a start tag must be to be read as it is written. -/
structure IsPlainStart (tag : String) (attributes : Attributes) : Prop where
  plainTag : isPlainName tag = true
  notRaw : isRawTextTag tag = false
  /-- Readers and writers of the tag agree on whether it has content. -/
  void : opensNothing tag.toList = isVoidTag tag
  plainNames : ∀ entry ∈ attributes.toList, isPlainName entry.1 = true
  distinctNames : (attributes.toList.map (·.1)).Nodup

end IconMarkup.Html

namespace IconMarkup

open Html

/-! ### Canonical documents -/

/-- Whether a node is text of either kind. -/
def Node.isText : Node → Bool
  | .text _ => true
  | .raw _ => true
  | _ => false

/-- Whether no two neighbours are both text. -/
def TextsApart (nodes : List Node) : Prop :=
  nodes.IsChain fun first second => ¬ (first.isText ∧ second.isText)

mutual

/-- Whether a node can be written and read back. -/
def Node.Canonical : Node → Prop
  | .element tag attributes children =>
    IsPlainStart tag attributes ∧ (isVoidTag tag = true → children = []) ∧
      TextsApart children ∧ CanonicalNodes children
  | .text content => content ≠ ""
  | .raw _ => False
  | .comment content => IsPlainComment content.toList

/-- Whether each node of a list can be written and read back. -/
def CanonicalNodes : List Node → Prop
  | [] => True
  | node :: rest => node.Canonical ∧ CanonicalNodes rest

end

/-- Whether a document can be written and read back: a fragment of canonical nodes, with no texts
next to each other. -/
structure Document.Canonical (document : Document) : Prop where
  fragment : document.root.tag = fragmentTag
  bare : document.root.attributes = .empty
  apart : TextsApart document.root.children
  nodes : CanonicalNodes document.root.children

theorem canonicalNodes_iff {nodes : List Node} :
    CanonicalNodes nodes ↔ ∀ node ∈ nodes, node.Canonical := by
  induction nodes with
  | nil => simp [CanonicalNodes]
  | cons node rest ih => simp [CanonicalNodes, ih]

/-- Canonical nodes stay canonical side by side. -/
theorem canonicalNodes_append {first second : List Node} :
    CanonicalNodes (first ++ second) ↔ CanonicalNodes first ∧ CanonicalNodes second := by
  simp only [canonicalNodes_iff, List.forall_mem_append]

/-! ### The order of attributes -/

/-- The attributes with `id` and `class` moved to the end. -/
def Attributes.arranged (attributes : Attributes) : Attributes :=
  ⟨(attributes.entries.filter fun entry => entry.1 ≠ "id" ∧ entry.1 ≠ "class") ++
    attributes.entries.filter (·.1 = "id") ++ attributes.entries.filter (·.1 = "class")⟩

mutual

/-- A node with the attributes of each element arranged. -/
def Node.arranged : Node → Node
  | .element tag attributes children => .element tag attributes.arranged (arrangedNodes children)
  | .text content => .text content
  | .raw content => .raw content
  | .comment content => .comment content

/-- Nodes with the attributes of each element arranged. -/
def arrangedNodes : List Node → List Node
  | [] => []
  | node :: rest => node.arranged :: arrangedNodes rest

end

mutual

/-- Equality of nodes up to the order of attributes within an element. -/
inductive Node.Agrees : Node → Node → Prop
  | element (tag : String) {attributes attributes' : Attributes} {children children' : List Node}
    (hattributes : attributes.toList.Perm attributes'.toList)
    (hchildren : NodesAgree children children') :
    Node.Agrees (.element tag attributes children) (.element tag attributes' children')
  | text (content : String) : Node.Agrees (.text content) (.text content)
  | raw (content : String) : Node.Agrees (.raw content) (.raw content)
  | comment (content : String) : Node.Agrees (.comment content) (.comment content)

/-- Equality of lists of nodes up to the order of attributes within an element. -/
inductive NodesAgree : List Node → List Node → Prop
  | nil : NodesAgree [] []
  | cons {node node' : Node} {rest rest' : List Node} (hnode : node.Agrees node')
    (hrest : NodesAgree rest rest') : NodesAgree (node :: rest) (node' :: rest')

end

/-- Equality of documents up to the order of attributes within an element. -/
def Document.Agrees (document document' : Document) : Prop :=
  document.root.toNode.Agrees document'.root.toNode

/-- Arranging changes nothing but the order of attributes. -/
theorem Attributes.perm_arranged (attributes : Attributes) :
    attributes.toList.Perm attributes.arranged.toList := by
  let isOther := fun entry : String × String => decide (entry.1 ≠ "id" ∧ entry.1 ≠ "class")
  let isId := fun entry : String × String => decide (entry.1 = "id")
  have hothers := List.filter_append_perm isOther attributes.entries
  have hlast := List.filter_append_perm isId
    (attributes.entries.filter fun entry => !isOther entry)
  -- what is not moved to the end is neither `id` nor `class`, and no name is both
  have hid : (attributes.entries.filter fun entry => isId entry && !isOther entry) =
      attributes.entries.filter (·.1 = "id") := by
    refine List.filter_congr fun entry _ => ?_
    by_cases h : entry.1 = "id" <;> simp [isId, isOther, h]
  have hclass : (attributes.entries.filter fun entry => !isId entry && !isOther entry) =
      attributes.entries.filter (·.1 = "class") := by
    refine List.filter_congr fun entry _ => ?_
    by_cases h : entry.1 = "class"
    · simp [isId, isOther, h]
    · by_cases h' : entry.1 = "id" <;> simp [isId, isOther, h, h']
  rw [List.filter_filter, List.filter_filter, hid, hclass] at hlast
  rw [arranged, toList, toList, List.append_assoc]
  exact hothers.symm.trans (hlast.symm.append_left _)

mutual

/-- A node agrees with itself after its attributes are arranged. -/
private theorem Node.agrees_arranged : ∀ node : Node, node.Agrees node.arranged
  | .element tag attributes children => by
    rw [Node.arranged]
    exact .element tag attributes.perm_arranged (nodesAgree_arrangedNodes children)
  | .text content => by
    rw [Node.arranged]
    exact .text content
  | .raw content => by
    rw [Node.arranged]
    exact .raw content
  | .comment content => by
    rw [Node.arranged]
    exact .comment content

/-- Nodes agree with their arranged form. -/
theorem nodesAgree_arrangedNodes : ∀ nodes : List Node, NodesAgree nodes (arrangedNodes nodes)
  | [] => by
    rw [arrangedNodes]
    exact .nil
  | node :: rest => by
    rw [arrangedNodes]
    exact .cons (Node.agrees_arranged node) (nodesAgree_arrangedNodes rest)

end

end IconMarkup
