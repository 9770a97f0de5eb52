import IconMarkup.Proofs.Tree.Splicing

/-!
# Replacing text in place

`splice` builds a new list of nodes. The same replacements can be made in the list itself: a walk
that keeps an index takes a text out, puts its replacement in and goes on behind it
(`spliceFrom`). `splice_eq_withAnswers`: both come to the same, for every replacer, which may go by
what it was offered before. The replacer is offered the texts of the tree as it was, each once and
in order, and never what it answered; its answers stand where the texts stood (`withAnswers`), and
everything else is as it was.
-/

namespace IconMarkup

variable {σ : Type} {skip : List String} {replace : Replacer σ}

/-! ### Answers -/

/-- The answers of a replacer to texts that it is offered one by one. -/
def answersTo (replace : Replacer σ) (state : σ) : List String → List (Option (List Node))
  | [] => []
  | text :: rest => (replace state text).1 :: answersTo replace (replace state text).2 rest

/-- The replacer that also writes down what it is offered. -/
def Replacer.recorded (replace : Replacer σ) : Replacer (σ × List String) :=
  fun (state, seen) text => ((replace state text).1, (replace state text).2, seen ++ [text])

mutual

/-- What becomes of a node when the texts that it offers have these answers, in order. -/
def Node.withAnswers (skip : List String) : Node → List (Option (List Node)) → List Node
  | .element tag attributes children, answers =>
    if skip.contains tag then [.element tag attributes children]
    else [.element tag attributes (withAnswers skip children answers)]
  | .text content, answers => answers.head?.join.getD [.text content]
  | .raw content, _ => [.raw content]
  | .comment content, _ => [.comment content]

/-- What becomes of nodes when the texts that they offer have these answers, in order. -/
def withAnswers (skip : List String) : List Node → List (Option (List Node)) → List Node
  | [], _ => []
  | node :: rest, answers =>
    let offered := (node.offeredTexts skip).length
    node.withAnswers skip (answers.take offered) ++ withAnswers skip rest (answers.drop offered)

end

/-- Each text has one answer. -/
@[simp]
theorem length_answersTo (replace : Replacer σ) (state : σ) (texts : List String) :
    (answersTo replace state texts).length = texts.length := by
  induction texts generalizing state with
  | nil => rfl
  | cons text rest ih => rw [answersTo, List.length_cons, ih, List.length_cons]

/-- Answers to later texts depend on the state that the earlier ones leave. -/
theorem answersTo_append (state : σ) (first second : List String) :
    answersTo replace state (first ++ second) =
      answersTo replace state first ++
        answersTo replace (stateAfter replace state first) second := by
  induction first generalizing state with
  | nil => rfl
  | cons text rest ih =>
    rw [List.cons_append, answersTo, ih, answersTo, List.cons_append]
    rfl

/-- Writing down what is offered has no influence on the answers. -/
private theorem answersTo_recorded (state : σ) (seen texts : List String) :
    answersTo replace.recorded (state, seen) texts = answersTo replace state texts := by
  induction texts generalizing state seen with
  | nil => rfl
  | cons text rest ih => rw [answersTo, answersTo, Replacer.recorded, ih]

/-- A recording replacer passes through the same states and has seen the texts it was given. -/
private theorem stateAfter_recorded (state : σ) (seen texts : List String) :
    stateAfter replace.recorded (state, seen) texts =
      (stateAfter replace state texts, seen ++ texts) := by
  induction texts generalizing state seen with
  | nil => simp [stateAfter]
  | cons text rest ih =>
    have hrest := ih (replace state text).2 (seen ++ [text])
    rw [List.append_assoc] at hrest
    exact hrest

mutual

/-- Splicing a node puts in the answers to its offered texts and counts them. -/
private theorem Node.splice_eq (state : σ) :
    ∀ node : Node, node.splice skip replace state =
      ⟨node.withAnswers skip (answersTo replace state (node.offeredTexts skip)),
        (answersTo replace state (node.offeredTexts skip)).countP (·.isSome),
        stateAfter replace state (node.offeredTexts skip)⟩
  | .element tag attributes children => by
    rw [Node.splice, Node.offeredTexts]
    split
    · rename_i hskip
      rw [Node.withAnswers, if_pos hskip]
      rfl
    · rename_i hskip
      rw [Node.withAnswers, if_neg hskip, spliceNodes_eq state children]
  | .text content => by
    rw [Node.splice, Node.offeredTexts]
    rcases h : replace state content with ⟨_ | nodes, next⟩ <;>
      simp [answersTo, stateAfter, Node.withAnswers, h]
  | .raw content => by
    rw [Node.splice, Node.offeredTexts, Node.withAnswers]
    rfl
  | .comment content => by
    rw [Node.splice, Node.offeredTexts, Node.withAnswers]
    rfl

/-- A walk over nodes puts the answers to their texts in the place of the texts. -/
private theorem spliceNodes_eq (state : σ) :
    ∀ nodes : List Node, spliceNodes skip replace state nodes =
      ⟨withAnswers skip nodes (answersTo replace state (offeredTexts skip nodes)),
        (answersTo replace state (offeredTexts skip nodes)).countP (·.isSome),
        stateAfter replace state (offeredTexts skip nodes)⟩
  | [] => by
    rw [spliceNodes, offeredTexts, withAnswers]
    rfl
  | node :: rest => by
    have hlength := length_answersTo replace state (node.offeredTexts skip)
    rw [spliceNodes, offeredTexts, withAnswers, Node.splice_eq state node,
      spliceNodes_eq _ rest, answersTo_append, stateAfter_append]
    simp only [List.take_left' hlength, List.drop_left' hlength, List.countP_append]

end

/-! ### A walk with an index -/

/-- The list with some nodes put in before the one at an index. -/
def insertAll (index : Nat) (inserted nodes : List Node) : List Node :=
  nodes.take index ++ inserted ++ nodes.drop index

/-- Where an index points to a node, the list from there on is this node and the others. -/
private theorem drop_eq_cons {nodes : List Node} {index : Nat} {node : Node}
    (h : nodes[index]? = some node) : nodes.drop index = node :: nodes.drop (index + 1) := by
  obtain ⟨hlt, rfl⟩ := List.getElem?_eq_some_iff.mp h
  exact List.drop_eq_getElem_cons hlt

/-- Behind a replacement stands what stood behind its text. -/
private theorem drop_insertAll_eraseIdx {nodes inserted : List Node} {index : Nat}
    (h : index ≤ nodes.length) :
    (insertAll index inserted (nodes.eraseIdx index)).drop (index + inserted.length) =
      nodes.drop (index + 1) := by
  have hlength : ((nodes.eraseIdx index).take index ++ inserted).length =
      index + inserted.length := by
    rw [List.length_append, List.eraseIdx_eq_take_drop_succ, List.take_left' (by simp [h])]
    simp [h]
  rw [insertAll, List.drop_left' hlength, List.eraseIdx_eq_take_drop_succ,
    List.drop_left' (by simp [h])]

private theorem drop_set_succ {nodes : List Node} {index : Nat} {node : Node} :
    (nodes.set index node).drop (index + 1) = nodes.drop (index + 1) := by
  rw [List.drop_set_of_lt (by omega)]

/-- Replaces running text from an index on, in the list itself, with the number of replaced texts
so far. A replacement is put in the place of its text, and the walk goes on behind it. -/
def spliceFrom (skip : List String) (replace : Replacer σ) (index replaced : Nat) (state : σ)
    (nodes : List Node) : Spliced σ :=
  match h : nodes[index]? with
  | none => ⟨nodes, replaced, state⟩
  | some (.text content) =>
    match replace state content with
    | (some answer, next) =>
      spliceFrom skip replace (index + answer.length) (replaced + 1) next
        (insertAll index answer (nodes.eraseIdx index))
    | (none, next) => spliceFrom skip replace (index + 1) replaced next nodes
  | some (.element tag attributes children) =>
    if skip.contains tag then spliceFrom skip replace (index + 1) replaced state nodes
    else
      let inside := spliceFrom skip replace 0 0 state children
      spliceFrom skip replace (index + 1) (replaced + inside.replaced) inside.state
        (nodes.set index (.element tag attributes inside.nodes))
  | some (.raw _) => spliceFrom skip replace (index + 1) replaced state nodes
  | some (.comment _) => spliceFrom skip replace (index + 1) replaced state nodes
termination_by sizeOf (nodes.drop index)
decreasing_by
  -- what is left to walk gets shorter, whatever is put in before it
  all_goals
    have hlt := (List.getElem?_eq_some_iff.mp h).1
    simp only [drop_insertAll_eraseIdx (Nat.le_of_lt hlt), drop_set_succ, drop_eq_cons h,
      List.drop_zero, List.cons.sizeOf_spec, Node.element.sizeOf_spec]
    omega

/-- Replaces the running text inside an element in the list of its children. -/
def Element.spliceInPlace (skip : List String) (replace : Replacer σ) (state : σ)
    (element : Element) : Element × Nat × σ :=
  let inside := spliceFrom skip replace 0 0 state element.children
  ({ element with children := inside.nodes }, inside.replaced, inside.state)

/-- Whether a walk passes a node by. -/
def Node.IsPassed (skip : List String) : Node → Prop
  | .element tag _ _ => skip.contains tag
  | .text _ => False
  | .raw _ => True
  | .comment _ => True

theorem Node.splice_of_isPassed {node : Node} (h : node.IsPassed skip) (state : σ) :
    node.splice skip replace state = ⟨[node], 0, state⟩ := by
  rcases node with ⟨tag, attributes, children⟩ | content | content | content
  · have hskip : skip.contains tag = true := h
    rw [Node.splice, if_pos hskip]
  · exact h.elim
  · rw [Node.splice]
  · rw [Node.splice]

section

variable {index replaced : Nat} {state next : σ} {nodes answer children : List Node}
  {content tag : String} {attributes : Attributes}

private theorem spliceFrom_of_none (h : nodes[index]? = none) :
    spliceFrom skip replace index replaced state nodes = ⟨nodes, replaced, state⟩ := by
  rw [spliceFrom]
  split <;> simp_all

/-- A node that is passed stays where it is. -/
private theorem spliceFrom_of_isPassed {node : Node} (h : nodes[index]? = some node)
    (hpassed : node.IsPassed skip) :
    spliceFrom skip replace index replaced state nodes =
      spliceFrom skip replace (index + 1) replaced state nodes := by
  rw [spliceFrom]
  rcases node with _ | _ | _ | _ <;> split <;> simp_all [Node.IsPassed]

/-- A text with an answer makes room for the answer, which is not looked at again. -/
private theorem spliceFrom_of_answer (h : nodes[index]? = some (.text content))
    (hanswer : replace state content = (some answer, next)) :
    spliceFrom skip replace index replaced state nodes =
      spliceFrom skip replace (index + answer.length) (replaced + 1) next
        (insertAll index answer (nodes.eraseIdx index)) := by
  rw [spliceFrom]
  split <;> simp_all

private theorem spliceFrom_of_no_answer (h : nodes[index]? = some (.text content))
    (hanswer : replace state content = (none, next)) :
    spliceFrom skip replace index replaced state nodes =
      spliceFrom skip replace (index + 1) replaced next nodes := by
  rw [spliceFrom]
  split <;> simp_all

/-- An element that is not skipped is spliced inside before its siblings are. -/
private theorem spliceFrom_of_element {inside : Spliced σ}
    (h : nodes[index]? = some (.element tag attributes children))
    (hskip : ¬ skip.contains tag = true)
    (hinside : spliceFrom skip replace 0 0 state children = inside) :
    spliceFrom skip replace index replaced state nodes =
      spliceFrom skip replace (index + 1) (replaced + inside.replaced) inside.state
        (nodes.set index (.element tag attributes inside.nodes)) := by
  rw [spliceFrom]
  split <;> simp_all

end

/-- Nodes are put in the place of the one after those that are done. -/
private theorem insertAll_eraseIdx (done answer rest : List Node) (node : Node) :
    insertAll done.length answer ((done ++ node :: rest).eraseIdx done.length) =
      (done ++ answer) ++ rest := by
  simp [insertAll, List.eraseIdx_append_of_length_le]

private theorem set_length_append (done rest : List Node) (node node' : Node) :
    (done ++ node :: rest).set done.length node' = (done ++ [node']) ++ rest := by
  simp

/-- A walk that has come to an index leaves what is before it alone, and makes of the others what a
walk over them alone makes. -/
theorem spliceFrom_append (skip : List String) (replace : Replacer σ) :
    ∀ (rest done : List Node) (replaced : Nat) (state : σ),
      spliceFrom skip replace done.length replaced state (done ++ rest) =
        ⟨done ++ (spliceNodes skip replace state rest).nodes,
          replaced + (spliceNodes skip replace state rest).replaced,
          (spliceNodes skip replace state rest).state⟩
  | [], done, replaced, state => by
    rw [spliceFrom_of_none (by simp), spliceNodes]
    rfl
  | node :: rest, done, replaced, state => by
    have hnode : (done ++ node :: rest)[done.length]? = some node := by simp
    -- the walk goes on with the others behind what this node became
    have hrest : ∀ (nodes : List Node) (count : Nat) (next : σ),
        node.splice skip replace state = ⟨nodes, count, next⟩ →
        spliceFrom skip replace (done.length + nodes.length) (replaced + count) next
            ((done ++ nodes) ++ rest) =
          ⟨done ++ (spliceNodes skip replace state (node :: rest)).nodes,
            replaced + (spliceNodes skip replace state (node :: rest)).replaced,
            (spliceNodes skip replace state (node :: rest)).state⟩ := by
      intro nodes count next hsplice
      have ih := spliceFrom_append skip replace rest (done ++ nodes) (replaced + count) next
      rw [List.length_append] at ih
      rw [ih, spliceNodes, hsplice, List.append_assoc, Nat.add_assoc]
    by_cases hpassed : node.IsPassed skip
    · rw [spliceFrom_of_isPassed hnode hpassed]
      have hgoes := hrest [node] 0 state (Node.splice_of_isPassed hpassed state)
      rwa [List.append_assoc] at hgoes
    · rcases node with ⟨tag, attributes, children⟩ | content | content | content
      · have hskip : ¬ skip.contains tag = true := hpassed
        have hinside := spliceFrom_append skip replace children [] 0 state
        rw [List.nil_append, List.nil_append, Nat.zero_add, List.length_nil] at hinside
        rw [spliceFrom_of_element hnode hskip hinside, set_length_append]
        refine hrest [_] _ _ ?_
        rw [Node.splice, if_neg hskip]
      · rcases hanswer : replace state content with ⟨_ | answer, next⟩
        · rw [spliceFrom_of_no_answer hnode hanswer]
          have hgoes := hrest [.text content] 0 next (by rw [Node.splice, hanswer])
          rwa [List.append_assoc] at hgoes
        · rw [spliceFrom_of_answer hnode hanswer, insertAll_eraseIdx]
          exact hrest answer 1 next (by rw [Node.splice, hanswer])
      · exact absurd trivial hpassed
      · exact absurd trivial hpassed
termination_by rest => sizeOf rest

/-- Replacing text in place comes to the same as building the list anew. -/
private theorem Element.spliceInPlace_eq (state : σ) (element : Element) :
    element.spliceInPlace skip replace state = element.splice skip replace state := by
  have hinside := spliceFrom_append skip replace element.children [] 0 state
  rw [List.nil_append, List.nil_append, Nat.zero_add, List.length_nil] at hinside
  rw [Element.spliceInPlace, Element.splice, hinside]

/-- Replacing the running text of an element, in place or not, puts the answers of the replacer to
the offered texts in the place of these texts, counts those that are replacements, and leaves
everything else as it was. A replacer that writes down what it is offered shows that these are the
texts of the element as it was, each once and in order. -/
theorem splice_eq_withAnswers (skip : List String) (replace : Replacer σ) (state : σ)
    (element : Element) :
    let texts := element.offeredTexts skip
    let answers := answersTo replace state texts
    let children := withAnswers skip element.children answers
    let replaced := answers.countP (·.isSome)
    let final := stateAfter replace state texts
    element.splice skip replace state = ({ element with children := children }, replaced, final) ∧
      element.splice skip replace.recorded (state, []) =
        ({ element with children := children }, replaced, final, texts) ∧
      element.spliceInPlace skip replace state = element.splice skip replace state ∧
      element.spliceInPlace skip replace.recorded (state, []) =
        element.splice skip replace.recorded (state, []) := by
  intro texts answers children replaced final
  refine ⟨?_, ?_, element.spliceInPlace_eq _, element.spliceInPlace_eq _⟩
  · rw [Element.splice, spliceNodes_eq]
    rfl
  · rw [Element.splice, spliceNodes_eq, answersTo_recorded, stateAfter_recorded]
    rfl

end IconMarkup
