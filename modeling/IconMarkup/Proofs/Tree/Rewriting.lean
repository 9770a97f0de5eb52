import IconMarkup.Tree.Walk

/-!
# Rewriting running text

A replacer without state answers each text by itself, and then walking a tree with it comes down
to a plain recursion: `rewriteNodes` puts the answers in the place of the texts. The main facts:

* `spliceNodes_stateless`: the walk gives these nodes and counts the answered texts;
* `rewriteNodes_rewriteNodes_comm`: two passes with different skip lists commute if the replacer
  finds nothing more to do in its own answers (`Settles`);
* `rewriteNodes_rewriteNodes_of_subset`: of two such passes the one that skips more is absorbed by
  the other, and its answered texts are not answered again (`answered_rewriteNodes_of_subset`).
-/

namespace IconMarkup

/-! ### Replacing running text -/

mutual

/-- The nodes that a node becomes when its running text is replaced, outside skipped elements. -/
def Node.rewrite (skip : List String) (replace? : String → Option (List Node)) : Node → List Node
  | .element tag attributes children =>
    if skip.contains tag then [.element tag attributes children]
    else [.element tag attributes (rewriteNodes skip replace? children)]
  | .text content => (replace? content).getD [.text content]
  | .raw content => [.raw content]
  | .comment content => [.comment content]

/-- The nodes that a list of nodes becomes. -/
def rewriteNodes (skip : List String) (replace? : String → Option (List Node)) :
    List Node → List Node
  | [] => []
  | node :: rest => node.rewrite skip replace? ++ rewriteNodes skip replace? rest

end

/-- How many of the offered texts a replacer answers. -/
def answered (skip : List String) (replace? : String → Option (List Node)) (nodes : List Node) :
    Nat :=
  (offeredTexts skip nodes).countP fun text => (replace? text).isSome

section

variable {σ : Type} {skip : List String} {replace? : String → Option (List Node)}

mutual

/-- A walk over a node with a replacer that answers each text by itself. -/
theorem Node.splice_stateless (state : σ) :
    ∀ node : Node, node.splice skip (fun state text => (replace? text, state)) state =
      ⟨node.rewrite skip replace?,
        (node.offeredTexts skip).countP fun text => (replace? text).isSome, state⟩
  | .element tag attributes children => by
    rw [Node.splice, Node.rewrite, Node.offeredTexts]
    split
    · rfl
    · simp only [spliceNodes_stateless state children, answered]
  | .text content => by
    rw [Node.splice, Node.rewrite, Node.offeredTexts]
    rcases h : replace? content with _ | nodes <;> simp [h]
  | .raw content => by simp [Node.splice, Node.rewrite, Node.offeredTexts]
  | .comment content => by simp [Node.splice, Node.rewrite, Node.offeredTexts]

/-- A walk over nodes with a replacer that answers each text by itself. -/
theorem spliceNodes_stateless (state : σ) :
    ∀ nodes : List Node, spliceNodes skip (fun state text => (replace? text, state)) state nodes =
      ⟨rewriteNodes skip replace? nodes, answered skip replace? nodes, state⟩
  | [] => by simp [spliceNodes, rewriteNodes, answered, offeredTexts]
  | node :: rest => by
    simp only [spliceNodes, rewriteNodes, answered, offeredTexts, List.countP_append,
      Node.splice_stateless state node, spliceNodes_stateless state rest]

end

theorem rewriteNodes_append (first second : List Node) :
    rewriteNodes skip replace? (first ++ second) =
      rewriteNodes skip replace? first ++ rewriteNodes skip replace? second := by
  induction first with
  | nil => rfl
  | cons node rest ih => simp [rewriteNodes, ih]

theorem offeredTexts_append (first second : List Node) :
    offeredTexts skip (first ++ second) = offeredTexts skip first ++ offeredTexts skip second := by
  induction first with
  | nil => rfl
  | cons node rest ih => simp [offeredTexts, ih]

theorem answered_append (first second : List Node) :
    answered skip replace? (first ++ second) =
      answered skip replace? first + answered skip replace? second := by
  simp [answered, offeredTexts_append]

end

/-! ### Passes in a row -/

/-- Whether a replacer has nothing to do in its own answers, whatever is skipped. -/
def Settles (replace? : String → Option (List Node)) : Prop :=
  ∀ text nodes, replace? text = some nodes →
    ∀ skip, ∀ offered ∈ offeredTexts skip nodes, replace? offered = none

section

variable {replace? : String → Option (List Node)}

mutual

/-- A node whose offered texts are all kept stays as it is. -/
theorem Node.rewrite_eq_self {skip : List String} :
    ∀ node : Node, (∀ text ∈ node.offeredTexts skip, replace? text = none) →
      node.rewrite skip replace? = [node]
  | .element tag attributes children, h => by
    rw [Node.rewrite]
    split
    · rfl
    · rename_i hskip
      rw [Node.offeredTexts, if_neg hskip] at h
      rw [rewriteNodes_eq_self children h]
  | .text content, h => by
    rw [Node.rewrite, h content (by simp [Node.offeredTexts]), Option.getD_none]
  | .raw content, _ => by rw [Node.rewrite]
  | .comment content, _ => by rw [Node.rewrite]

/-- Nodes whose offered texts are all kept stay as they are. -/
theorem rewriteNodes_eq_self {skip : List String} :
    ∀ nodes : List Node, (∀ text ∈ offeredTexts skip nodes, replace? text = none) →
      rewriteNodes skip replace? nodes = nodes
  | [], _ => by rw [rewriteNodes]
  | node :: rest, h => by
    rw [offeredTexts] at h
    rw [rewriteNodes, Node.rewrite_eq_self node fun text ht => h text (List.mem_append_left _ ht),
      rewriteNodes_eq_self rest fun text ht => h text (List.mem_append_right _ ht)]
    rfl

end

theorem Settles.rewriteNodes_eq (hs : Settles replace?) {text : String} {nodes : List Node}
    (h : replace? text = some nodes) (skip : List String) :
    rewriteNodes skip replace? nodes = nodes :=
  rewriteNodes_eq_self nodes (hs text nodes h skip)

private theorem Settles.answered_eq_zero (hs : Settles replace?) {text : String} {nodes : List Node}
    (h : replace? text = some nodes) (skip : List String) :
    answered skip replace? nodes = 0 := by
  rw [answered, List.countP_eq_zero]
  intro offered hoffered
  simp [hs text nodes h skip offered hoffered]

/-! ### Passes with two skip lists -/

mutual

private theorem Node.rewrite_rewrite_comm (hs : Settles replace?) (first second : List String) :
    ∀ node : Node, rewriteNodes second replace? (node.rewrite first replace?) =
      rewriteNodes first replace? (node.rewrite second replace?)
  | .element tag attributes children => by
    have ih := rewriteNodes_rewriteNodes_comm hs first second children
    -- a tag that only one pass skips is left to the other, in either order
    by_cases h₁ : tag ∈ first <;> by_cases h₂ : tag ∈ second <;>
      simp [Node.rewrite, rewriteNodes, h₁, h₂, ih]
  | .text content => by
    rcases h : replace? content with _ | nodes
    · simp [Node.rewrite, rewriteNodes, h]
    · simp [Node.rewrite, h, hs.rewriteNodes_eq h]
  | .raw content => by simp [Node.rewrite, rewriteNodes]
  | .comment content => by simp [Node.rewrite, rewriteNodes]

/-- Passes with different skip lists commute. -/
theorem rewriteNodes_rewriteNodes_comm (hs : Settles replace?) (first second : List String) :
    ∀ nodes : List Node, rewriteNodes second replace? (rewriteNodes first replace? nodes) =
      rewriteNodes first replace? (rewriteNodes second replace? nodes)
  | [] => by simp [rewriteNodes]
  | node :: rest => by
    simp only [rewriteNodes, rewriteNodes_append, Node.rewrite_rewrite_comm hs first second node,
      rewriteNodes_rewriteNodes_comm hs first second rest]

end

mutual

private theorem Node.rewrite_rewrite_of_subset (hs : Settles replace?) {first second : List String}
    (hsub : ∀ tag ∈ second, tag ∈ first) :
    ∀ node : Node, rewriteNodes second replace? (node.rewrite first replace?) =
      node.rewrite second replace?
  | .element tag attributes children => by
    -- what the earlier pass skipped is rewritten by this one, unless it skips it too
    by_cases h : tag ∈ first
    · simp [Node.rewrite, rewriteNodes, h]
    · have h' : tag ∉ second := mt (hsub tag) h
      simp [Node.rewrite, rewriteNodes, h, h', rewriteNodes_rewriteNodes_of_subset hs hsub children]
  | .text content => by
    rcases h : replace? content with _ | nodes
    · simp [Node.rewrite, rewriteNodes, h]
    · simp [Node.rewrite, h, hs.rewriteNodes_eq h]
  | .raw content => by simp [Node.rewrite, rewriteNodes]
  | .comment content => by simp [Node.rewrite, rewriteNodes]

/-- A pass absorbs an earlier one that skips all that it skips. -/
theorem rewriteNodes_rewriteNodes_of_subset (hs : Settles replace?) {first second : List String}
    (hsub : ∀ tag ∈ second, tag ∈ first) :
    ∀ nodes : List Node, rewriteNodes second replace? (rewriteNodes first replace? nodes) =
      rewriteNodes second replace? nodes
  | [] => by simp [rewriteNodes]
  | node :: rest => by
    simp only [rewriteNodes, rewriteNodes_append, Node.rewrite_rewrite_of_subset hs hsub node,
      rewriteNodes_rewriteNodes_of_subset hs hsub rest]

end

mutual

private theorem Node.answered_rewrite_of_subset (hs : Settles replace?) {first second : List String}
    (hsub : ∀ tag ∈ second, tag ∈ first) :
    ∀ node : Node, answered first replace? [node] +
        answered second replace? (node.rewrite first replace?) =
      answered second replace? [node]
  | .element tag attributes children => by
    have ih := answered_rewriteNodes_of_subset hs hsub children
    by_cases h : tag ∈ first
    · simp [answered, Node.rewrite, offeredTexts, Node.offeredTexts, h]
    · have h' : tag ∉ second := mt (hsub tag) h
      simpa [answered, Node.rewrite, offeredTexts, Node.offeredTexts, h, h'] using ih
  | .text content => by
    rcases h : replace? content with _ | nodes
    · simp [answered, Node.rewrite, offeredTexts, Node.offeredTexts, h]
    · -- the text counts for the earlier pass, and its answer for none
      have hzero := hs.answered_eq_zero h second
      rw [Node.rewrite, h, Option.getD_some, hzero]
      simp [answered, offeredTexts, Node.offeredTexts]
  | .raw content => by simp [answered, Node.rewrite, offeredTexts, Node.offeredTexts]
  | .comment content => by simp [answered, Node.rewrite, offeredTexts, Node.offeredTexts]

/-- The texts that a pass answers are those that it would answer alone, less those answered by an
earlier pass that skips all that it skips. -/
theorem answered_rewriteNodes_of_subset (hs : Settles replace?) {first second : List String}
    (hsub : ∀ tag ∈ second, tag ∈ first) :
    ∀ nodes : List Node, answered first replace? nodes +
        answered second replace? (rewriteNodes first replace? nodes) =
      answered second replace? nodes
  | [] => by simp [answered, rewriteNodes, offeredTexts]
  | node :: rest => by
    have hnode := Node.answered_rewrite_of_subset hs hsub node
    have hrest := answered_rewriteNodes_of_subset hs hsub rest
    rw [← List.singleton_append, answered_append, answered_append, rewriteNodes_append,
      answered_append]
    simp only [rewriteNodes, List.append_nil]
    omega

end

end

end IconMarkup
