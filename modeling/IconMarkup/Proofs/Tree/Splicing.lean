import IconMarkup.Tree.Walk

/-!
# Offering text to a replacer

Which texts a walk that replaces text offers to its replacer: those that the other walk lists, once
each and in the same order. So the state that the replacer ends with is what these texts make of it
(`state_spliceNodes`).
-/

namespace IconMarkup

variable {σ : Type} {skip : List String} {replace : Replacer σ}

/-- The state of a replacer after it was offered texts one by one. -/
def stateAfter (replace : Replacer σ) (state : σ) (texts : List String) : σ :=
  texts.foldl (fun state text => (replace state text).2) state

theorem stateAfter_append (state : σ) (first second : List String) :
    stateAfter replace state (first ++ second) =
      stateAfter replace (stateAfter replace state first) second :=
  List.foldl_append

mutual

private theorem Node.state_splice (state : σ) :
    ∀ node : Node, (node.splice skip replace state).state =
      stateAfter replace state (node.offeredTexts skip)
  | .element tag attributes children => by
    rw [Node.splice, Node.offeredTexts]
    split
    · rfl
    · exact state_spliceNodes state children
  | .text content => by
    rw [Node.splice, Node.offeredTexts]
    rcases h : replace state content with ⟨_ | nodes, next⟩ <;> simp [stateAfter, h]
  | .raw content => by
    rw [Node.splice, Node.offeredTexts]
    rfl
  | .comment content => by
    rw [Node.splice, Node.offeredTexts]
    rfl

/-- The replacer is offered the offered texts of the nodes, one by one. -/
theorem state_spliceNodes (state : σ) :
    ∀ nodes : List Node, (spliceNodes skip replace state nodes).state =
      stateAfter replace state (offeredTexts skip nodes)
  | [] => by
    rw [spliceNodes, offeredTexts]
    rfl
  | node :: rest => by
    rw [spliceNodes, offeredTexts, stateAfter_append, ← Node.state_splice state node]
    exact state_spliceNodes _ rest

end

end IconMarkup
