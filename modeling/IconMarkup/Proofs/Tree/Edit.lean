import IconMarkup.Proofs.Tree.Rewriting

/-!
# What a pass inserts

An `Edit` puts a node of a document next to what became of it in a pass that replaces running text.
The nodes before the pass and the nodes after it can both be read off the edits, and so can the
nodes that the pass inserted, in document order (`insertedOf`). The edits of a pass are made so that
the first reading gives back the document (`beforeOf_editsOf`) and the second one the outcome of
the pass (`afterOf_editsOf`).
-/

namespace IconMarkup

/-! ### Before and after -/

/-- A node of a document and what became of it. -/
inductive Edit where
  /-- A node that stayed as it is, with everything inside it. -/
  | kept (node : Node)
  /-- A text, and the nodes that took its place. -/
  | replaced (text : String) (nodes : List Node)
  /-- An element that stayed, and what became of its children. -/
  | inside (tag : String) (attributes : Attributes) (edits : List Edit)

mutual

/-- The node before the pass. -/
def Edit.before : Edit → Node
  | .kept node => node
  | .replaced text _ => .text text
  | .inside tag attributes edits => .element tag attributes (beforeOf edits)

/-- The nodes before the pass. -/
def beforeOf : List Edit → List Node
  | [] => []
  | edit :: rest => edit.before :: beforeOf rest

end

mutual

/-- The nodes after the pass. -/
def Edit.after : Edit → List Node
  | .kept node => [node]
  | .replaced _ nodes => nodes
  | .inside tag attributes edits => [.element tag attributes (afterOf edits)]

/-- The nodes after the pass, in order. -/
def afterOf : List Edit → List Node
  | [] => []
  | edit :: rest => edit.after ++ afterOf rest

end

mutual

/-- The nodes that the pass inserted. -/
def Edit.inserted : Edit → List Node
  | .kept _ => []
  | .replaced _ nodes => nodes
  | .inside _ _ edits => insertedOf edits

/-- The nodes that the pass inserted, in document order. -/
def insertedOf : List Edit → List Node
  | [] => []
  | edit :: rest => edit.inserted ++ insertedOf rest

end

/-! ### The edits of a rewriting -/

mutual

/-- What becomes of a node when its running text is replaced, outside skipped elements. -/
def Node.edit (skip : List String) (replace? : String → Option (List Node)) : Node → Edit
  | .element tag attributes children =>
    if skip.contains tag then .kept (.element tag attributes children)
    else .inside tag attributes (editsOf skip replace? children)
  | .text content =>
    match replace? content with
    | some nodes => .replaced content nodes
    | none => .kept (.text content)
  | .raw content => .kept (.raw content)
  | .comment content => .kept (.comment content)

/-- What becomes of a list of nodes. -/
def editsOf (skip : List String) (replace? : String → Option (List Node)) : List Node → List Edit
  | [] => []
  | node :: rest => node.edit skip replace? :: editsOf skip replace? rest

end

section

variable {skip : List String} {replace? : String → Option (List Node)}

mutual

private theorem Node.before_edit : ∀ node : Node, (node.edit skip replace?).before = node
  | .element tag attributes children => by
    rw [Node.edit]
    split
    · rw [Edit.before]
    · rw [Edit.before, beforeOf_editsOf children]
  | .text content => by
    rw [Node.edit]
    split <;> rw [Edit.before]
  | .raw content => by rw [Node.edit, Edit.before]
  | .comment content => by rw [Node.edit, Edit.before]

/-- The edits of a pass start from the document. -/
theorem beforeOf_editsOf : ∀ nodes : List Node, beforeOf (editsOf skip replace? nodes) = nodes
  | [] => by rw [editsOf, beforeOf]
  | node :: rest => by rw [editsOf, beforeOf, Node.before_edit node, beforeOf_editsOf rest]

end

mutual

private theorem Node.after_edit :
    ∀ node : Node, (node.edit skip replace?).after = node.rewrite skip replace?
  | .element tag attributes children => by
    rw [Node.edit, Node.rewrite]
    split
    · rw [Edit.after]
    · rw [Edit.after, afterOf_editsOf children]
  | .text content => by
    rw [Node.edit, Node.rewrite]
    split <;> rename_i h <;> simp [Edit.after, h]
  | .raw content => by rw [Node.edit, Node.rewrite, Edit.after]
  | .comment content => by rw [Node.edit, Node.rewrite, Edit.after]

/-- The edits of a pass end at its outcome. -/
theorem afterOf_editsOf :
    ∀ nodes : List Node, afterOf (editsOf skip replace? nodes) = rewriteNodes skip replace? nodes
  | [] => by rw [editsOf, afterOf, rewriteNodes]
  | node :: rest => by
    rw [editsOf, afterOf, rewriteNodes, Node.after_edit node, afterOf_editsOf rest]

end

mutual

private theorem Node.inserted_edit :
    ∀ node : Node, (node.edit skip replace?).inserted =
      (node.offeredTexts skip).flatMap fun text => (replace? text).getD []
  | .element tag attributes children => by
    rw [Node.edit, Node.offeredTexts]
    split
    · rw [Edit.inserted, List.flatMap_nil]
    · rw [Edit.inserted, insertedOf_editsOf children]
  | .text content => by
    rw [Node.edit, Node.offeredTexts]
    split <;> rename_i h <;> simp [Edit.inserted, h]
  | .raw content => by rw [Node.edit, Node.offeredTexts, Edit.inserted, List.flatMap_nil]
  | .comment content => by rw [Node.edit, Node.offeredTexts, Edit.inserted, List.flatMap_nil]

/-- A pass inserts the answers to the offered texts, in their order. -/
theorem insertedOf_editsOf :
    ∀ nodes : List Node, insertedOf (editsOf skip replace? nodes) =
      (offeredTexts skip nodes).flatMap fun text => (replace? text).getD []
  | [] => by rw [editsOf, insertedOf, offeredTexts, List.flatMap_nil]
  | node :: rest => by
    rw [editsOf, insertedOf, offeredTexts, List.flatMap_append, Node.inserted_edit node,
      insertedOf_editsOf rest]

end

end

end IconMarkup
