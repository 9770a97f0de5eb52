import IconMarkup.Tree.Node

/-!
# Walking the running text

Two walks over the running text of a tree, in document order: `offeredTexts` lists it and `splice`
replaces it. Both leave out the subtrees of skipped tags, raw text and comments. A replacement is
never walked itself.
-/

namespace IconMarkup

mutual

/-- The running text of a node, outside skipped elements. -/
def Node.offeredTexts (skip : List String) : Node → List String
  | .element tag _ children => if skip.contains tag then [] else offeredTexts skip children
  | .text content => [content]
  | .raw _ => []
  | .comment _ => []

/-- The running text of a list of nodes, outside skipped elements. -/
def offeredTexts (skip : List String) : List Node → List String
  | [] => []
  | node :: rest => node.offeredTexts skip ++ offeredTexts skip rest

end

/-- What a walk that replaces text ends with. -/
structure Spliced (σ : Type) where
  /-- The nodes after the replacements. -/
  nodes : List Node
  /-- How many texts were replaced. -/
  replaced : Nat
  /-- The state that the replacer ended with. -/
  state : σ

/-- A replacer: from its state and a text it answers with the nodes that replace the text, or
`none` to keep it, and with its next state. -/
abbrev Replacer (σ : Type) := σ → String → Option (List Node) × σ

mutual

/-- Replaces the running text of a node, outside skipped elements. -/
def Node.splice {σ : Type} (skip : List String) (replace : Replacer σ) (state : σ) :
    Node → Spliced σ
  | .element tag attributes children =>
    if skip.contains tag then ⟨[.element tag attributes children], 0, state⟩
    else
      let inside := spliceNodes skip replace state children
      ⟨[.element tag attributes inside.nodes], inside.replaced, inside.state⟩
  | .text content =>
    match replace state content with
    | (some nodes, next) => ⟨nodes, 1, next⟩
    | (none, next) => ⟨[.text content], 0, next⟩
  | .raw content => ⟨[.raw content], 0, state⟩
  | .comment content => ⟨[.comment content], 0, state⟩

/-- Replaces the running text of a list of nodes, outside skipped elements. -/
def spliceNodes {σ : Type} (skip : List String) (replace : Replacer σ) (state : σ) :
    List Node → Spliced σ
  | [] => ⟨[], 0, state⟩
  | node :: rest =>
    let first := node.splice skip replace state
    let others := spliceNodes skip replace first.state rest
    ⟨first.nodes ++ others.nodes, first.replaced + others.replaced, others.state⟩

end

/-- The running text inside an element, outside skipped elements. The element itself is never
skipped. -/
def Element.offeredTexts (skip : List String) (element : Element) : List String :=
  IconMarkup.offeredTexts skip element.children

/-- Replaces the running text inside an element, which itself is never skipped. Gives the element,
the number of replaced texts and the state that the replacer ended with. -/
def Element.splice {σ : Type} (skip : List String) (replace : Replacer σ) (state : σ)
    (element : Element) : Element × Nat × σ :=
  let inside := spliceNodes skip replace state element.children
  ({ element with children := inside.nodes }, inside.replaced, inside.state)

end IconMarkup
