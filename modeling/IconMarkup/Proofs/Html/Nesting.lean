import IconMarkup.Html.SourceNode

/-!
# What nesting preserves

Nesting tokens decides which nodes stand inside which, and otherwise builds a node from one token
at a time. So what each token by itself makes sure of holds throughout the tree
(`throughout_ofText`), and of the nodes and open elements at every step (`exists_nest_append`).
-/

namespace IconMarkup.Html

mutual

/-- Whether a property holds of a node and of all nodes inside it. -/
def SourceNode.Throughout (p : SourceNode → Prop) : SourceNode → Prop
  | .element name attributes children =>
    p (.element name attributes children) ∧ ThroughoutAll p children
  | .text content => p (.text content)
  | .comment source => p (.comment source)

/-- Whether a property holds of the nodes of a list and of all nodes inside them. -/
def ThroughoutAll (p : SourceNode → Prop) : List SourceNode → Prop
  | [] => True
  | node :: rest => node.Throughout p ∧ ThroughoutAll p rest

end

/-- Whether a property holds of the nodes that a token can become, whatever follows it. -/
def Token.Ensures (p : SourceNode → Prop) : Token → Prop
  | .text content => p (.text content)
  | .comment source => p (.comment source)
  | .start name attributes _ =>
    p (.element name (arrange attributes) []) ∧
      (opensNothing name = false → ∀ children, p (.element name (arrange attributes) children))
  | .finish _ => True

/-- What holds of an open element and of the nodes before it. -/
structure OpenElement.Keeps (p : SourceNode → Prop) (innermost : OpenElement) : Prop where
  element : ∀ children, p (.element innermost.name innermost.attributes children)
  before : ThroughoutAll p innermost.before

variable {p : SourceNode → Prop}

theorem throughoutAll_iff {nodes : List SourceNode} :
    ThroughoutAll p nodes ↔ ∀ node ∈ nodes, node.Throughout p := by
  induction nodes with
  | nil => simp [ThroughoutAll]
  | cons node rest ih => simp [ThroughoutAll, ih]

theorem throughoutAll_reverse {nodes : List SourceNode} :
    ThroughoutAll p nodes.reverse ↔ ThroughoutAll p nodes := by
  simp [throughoutAll_iff]

theorem throughoutAll_append {first second : List SourceNode} :
    ThroughoutAll p (first ++ second) ↔ ThroughoutAll p first ∧ ThroughoutAll p second := by
  simp only [throughoutAll_iff, List.forall_mem_append]

/-- Closing an element keeps what holds of it and of the nodes inside. -/
private theorem OpenElement.Keeps.close {innermost : OpenElement} (h : innermost.Keeps p)
    {inside : List SourceNode} (hinside : ThroughoutAll p inside) :
    ThroughoutAll p
      (.element innermost.name innermost.attributes inside.reverse :: innermost.before) :=
  ⟨⟨h.element _, throughoutAll_reverse.mpr hinside⟩, h.before⟩

private theorem throughout_closeAll {opened : List OpenElement} {inside : List SourceNode}
    (hopened : ∀ element ∈ opened, element.Keeps p) (hinside : ThroughoutAll p inside) :
    ThroughoutAll p (closeAll opened inside) := by
  induction opened generalizing inside with
  | nil => exact throughoutAll_reverse.mpr hinside
  | cons innermost outer ih =>
    obtain ⟨hinnermost, houter⟩ := List.forall_mem_cons.mp hopened
    exact ih houter (hinnermost.close hinside)

/-- What the first of several tokens have been nested to, whatever the others are. It keeps what
held before and what each of the tokens makes sure of. -/
theorem exists_nest_append {first : List Token} {opened : List OpenElement}
    {inside : List SourceNode} (hfirst : ∀ token ∈ first, token.Ensures p)
    (hopened : ∀ element ∈ opened, element.Keeps p) (hinside : ThroughoutAll p inside) :
    ∃ opened' inside', (∀ element ∈ opened', element.Keeps p) ∧ ThroughoutAll p inside' ∧
      ∀ others, nest opened inside (first ++ others) = nest opened' inside' others := by
  fun_induction nest opened inside first with
  | case1 opened inside => exact ⟨opened, inside, hopened, hinside, fun _ => rfl⟩
  | case2 opened inside content rest ih =>
    obtain ⟨htext, hrest⟩ := List.forall_mem_cons.mp hfirst
    exact ih hrest hopened ⟨htext, hinside⟩
  | case3 opened inside source rest ih =>
    obtain ⟨hcomment, hrest⟩ := List.forall_mem_cons.mp hfirst
    exact ih hrest hopened ⟨hcomment, hinside⟩
  | case4 opened inside name attributes selfClosing rest hleaf ih =>
    obtain ⟨hstart, hrest⟩ := List.forall_mem_cons.mp hfirst
    simp only [List.cons_append, nest, if_pos hleaf]
    exact ih hrest hopened ⟨⟨hstart.1, trivial⟩, hinside⟩
  | case5 opened inside name attributes selfClosing rest hopens ih =>
    obtain ⟨hstart, hrest⟩ := List.forall_mem_cons.mp hfirst
    simp only [List.cons_append, nest, if_neg hopens]
    rw [Bool.not_eq_true, Bool.or_eq_false_iff] at hopens
    exact ih hrest (List.forall_mem_cons.mpr ⟨⟨hstart.2 hopens.2, hinside⟩, hopened⟩) trivial
  | case6 inside name rest ih =>
    exact ih (List.forall_mem_cons.mp hfirst).2 hopened hinside
  | case7 innermost outer inside rest ih =>
    obtain ⟨hinnermost, houter⟩ := List.forall_mem_cons.mp hopened
    simp only [List.cons_append, nest, if_true]
    exact ih (List.forall_mem_cons.mp hfirst).2 houter (hinnermost.close hinside)
  | case8 innermost outer inside name rest hother ih =>
    simp only [List.cons_append, nest, if_neg hother]
    exact ih (List.forall_mem_cons.mp hfirst).2 hopened hinside

/-- Nesting tokens keeps what holds of the nodes so far and of what each token becomes. -/
theorem throughout_nest {tokens : List Token} {opened : List OpenElement}
    {inside : List SourceNode} (htokens : ∀ token ∈ tokens, token.Ensures p)
    (hopened : ∀ element ∈ opened, element.Keeps p) (hinside : ThroughoutAll p inside) :
    ThroughoutAll p (nest opened inside tokens) := by
  obtain ⟨opened', inside', hopened', hinside', hnest⟩ :=
    exists_nest_append htokens hopened hinside
  rw [← List.append_nil tokens, hnest [], nest]
  exact throughout_closeAll hopened' hinside'

/-- What each token of a text makes sure of holds throughout the tree of the text. -/
theorem throughout_ofText {cs : List Char} (h : ∀ token ∈ tokens cs, token.Ensures p) :
    ThroughoutAll p (SourceNode.ofText cs) :=
  throughout_nest h (by simp) trivial

end IconMarkup.Html
