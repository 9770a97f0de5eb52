import IconMarkup.Proofs.Html.Tokens

/-!
# Reading pieces of markup

`Reads cs nodes ending`: a reader takes the text `cs` for `nodes`, whatever is open and whatever
follows, as far as `ending` allows it to follow. The relation is closed under putting pieces one
after the other (`Reads.append`) and inside an element (`Reads.element`), so that a text is read by
recursion on what it was written from. A comment that is never closed ends the reading, and with it
every open element.
-/

namespace IconMarkup.Html

/-! ### Endings -/

/-- How a piece of markup ends. -/
inductive Ending where
  /-- Anything may follow. -/
  | closed
  /-- In text, which goes on until a tag follows. -/
  | inText
  /-- In a comment that is not closed. -/
  | inComment
  deriving DecidableEq

namespace Ending

/-- Whether a text may follow without becoming part of the piece or, where that is a comment,
closing it. -/
def Allows : Ending → List Char → Prop
  | closed, _ => True
  | inText, rest => ∀ c ∈ rest.head?, c = '<'
  | inComment, rest => readComment? rest = none

/-- The tokens that follow a piece. -/
def tokensAfter : Ending → List Char → List Token
  | inComment, _ => []
  | _, rest => tokens rest

/-- How an element ends around a piece. -/
def outside : Ending → Ending
  | inComment => inComment
  | _ => closed

/-- Any piece may come last. -/
private theorem allows_nil (ending : Ending) : ending.Allows [] := by
  cases ending <;> simp [Allows, readComment?]

end Ending

/-! ### Reading piece by piece -/

/-- Whether a text is read as nodes by itself: whatever elements are open and whatever nodes came
before, and whatever follows that its ending allows. No open element has a name that opens
nothing. -/
def Reads (cs : List Char) (nodes : List SourceNode) (ending : Ending) : Prop :=
  ∀ (opened : List OpenElement) (inside : List SourceNode) (rest : List Char),
    (∀ element ∈ opened, opensNothing element.name = false) → ending.Allows rest →
      nest opened inside (tokens (cs ++ rest)) =
        nest opened (nodes.reverse ++ inside) (ending.tokensAfter rest)

namespace Reads

variable {cs cs' name : List Char} {nodes nodes' : List SourceNode} {ending ending' : Ending}
  {attributes : List SourceAttribute}

/-- The nodes of a text that is read as nodes. -/
theorem ofText (h : Reads cs nodes ending) : SourceNode.ofText cs = nodes := by
  have hread := h [] [] [] (by simp) ending.allows_nil
  have hrest : ending.tokensAfter [] = [] := by
    cases ending <;> simp [Ending.tokensAfter, tokens]
  rw [List.append_nil, List.append_nil, hrest, nest, closeAll, List.reverse_reverse] at hread
  exact hread

protected theorem nil : Reads [] [] .closed := fun _ _ _ _ _ => rfl

/-- What may be followed by anything may be followed by a tag. -/
theorem inText (h : Reads cs nodes .closed) : Reads cs nodes .inText :=
  fun opened inside rest hopened _ => h opened inside rest hopened trivial

/-- A piece is read before another one that it may be followed by. -/
theorem append (h : Reads cs nodes ending) (h' : Reads cs' nodes' ending')
    (hclosed : ending ≠ .inComment)
    (hnext : ∀ rest, ending'.Allows rest → ending.Allows (cs' ++ rest)) :
    Reads (cs ++ cs') (nodes ++ nodes') ending' := by
  intro opened inside rest hopened hrest
  have hafter : ending.tokensAfter (cs' ++ rest) = tokens (cs' ++ rest) := by
    cases ending <;> first | rfl | contradiction
  rw [List.append_assoc, h opened inside _ hopened (hnext rest hrest), hafter,
    h' opened _ rest hopened hrest, List.reverse_append, List.append_assoc]

/-- What is closed is read before anything. -/
theorem append_of_closed (h : Reads cs nodes .closed) (h' : Reads cs' nodes' ending') :
    Reads (cs ++ cs') (nodes ++ nodes') ending' :=
  h.append h' (by simp) fun _ _ => trivial

/-- Text is read before a tag. -/
theorem append_of_inText (h : Reads cs nodes .inText) (h' : Reads ('<' :: cs') nodes' ending') :
    Reads (cs ++ '<' :: cs') (nodes ++ nodes') ending' :=
  h.append h' (by simp) fun _ _ => by simp [Ending.Allows]

/-! ### Texts and comments -/

/-- Text without tags is a text, which goes on until a tag follows. -/
theorem text (hne : cs ≠ []) (hlt : '<' ∉ cs) : Reads cs [.text cs] .inText := by
  intro opened inside rest _ hrest
  rw [tokens_append_of_text hne hlt hrest, nest]
  rfl

theorem comment {body : List Char} (hstart : ['-', '-'] <+: body)
    (h : readComment? body = some (body, [])) :
    Reads ('<' :: '!' :: body) [.comment ('<' :: '!' :: body)] .closed := by
  intro opened inside rest _ _
  rw [tokens_comment hstart h, nest]
  rfl

/-- A comment without content is not closed by its own end. -/
theorem openComment : Reads "<!---->".toList [.comment []] .inComment := by
  intro opened inside rest _ hrest
  have hread : readComment? ('-' :: '-' :: '-' :: '-' :: '>' :: rest) = none := by
    have hend : readComment? rest = none := hrest
    simp [readComment?, hend]
  have hshape : "<!---->".toList ++ rest = '<' :: '!' :: '-' :: '-' :: '-' :: '-' :: '>' :: rest :=
    rfl
  rw [hshape, tokens_lt_cons rfl, readTag]
  simp only [hread, Option.toList_some, List.singleton_append, nest, tokens]
  rfl

/-! ### Elements -/

/-- A start tag whose name opens nothing is an element. -/
theorem leaf (h : IsReadableStart name attributes) (hname : opensNothing name = true) :
    Reads (startTag name attributes) [.element name (arrange attributes) []] .closed := by
  intro opened inside rest _ _
  rw [tokens_startTag h, nest, hname, Bool.or_true, if_pos rfl]
  rfl

/-- An end tag whose name opens nothing is ignored. -/
theorem leafEnd (h : '>' ∉ name) (hname : opensNothing name = true) :
    Reads (endTag name) [] .closed := by
  intro opened inside rest hopened _
  rw [tokens_endTag h]
  cases opened with
  | nil =>
    rw [nest]
    rfl
  | cons innermost outer =>
    have hother : innermost.name ≠ name := by
      rintro rfl
      rw [hopened innermost (List.mem_cons_self ..)] at hname
      cases hname
    rw [nest, if_neg hother]
    rfl

/-- An element is read around what is inside it. If a comment inside is not closed, the name of the
element must not close it. -/
theorem element (h : IsReadableStart name attributes) (hname : opensNothing name = false)
    (hinside : Reads cs nodes ending)
    (hhyphens : ending = .inComment → ¬ ['-', '-'] <:+: name) :
    Reads (startTag name attributes ++ cs ++ endTag name)
      [.element name (arrange attributes) nodes] ending.outside := by
  intro opened inside rest hopened hrest
  have hclose : '>' ∉ name := fun hmem => ne_of_isNameChar (h.name.chars _ hmem) (by decide) rfl
  have hnext : ending.Allows (endTag name ++ rest) := by
    cases ending with
    | closed => trivial
    | inText => simp [Ending.Allows, endTag]
    | inComment =>
      -- no two hyphens stand next to each other in the end tag, and none at its end
      have hlast : (endTag name).getLast? = some '>' := List.getLast?_concat
      have hno : ¬ ['-', '-'] <:+: endTag name := by
        rw [endTag, List.infix_concat_iff]
        refine not_or.mpr ⟨fun hsuffix => ?_, fun hinfix => ?_⟩
        · obtain ⟨before, hbefore⟩ := hsuffix
          have hends := congrArg List.getLast? hbefore
          rw [List.getLast?_concat, List.getLast?_append] at hends
          cases hends
        · simp only [List.infix_cons_iff, List.cons_prefix_cons] at hinfix
          simp [hhyphens rfl] at hinfix
      have hnone : readComment? rest = none := hrest
      rw [Ending.Allows, readComment?_append hno (by simp [hlast]), hnone, Option.map_none]
  have hopened' : ∀ element ∈ (⟨name, arrange attributes, inside⟩ :: opened : List OpenElement),
      opensNothing element.name = false := List.forall_mem_cons.mpr ⟨hname, hopened⟩
  rw [List.append_assoc, List.append_assoc, tokens_startTag h, nest, hname, Bool.or_false,
    if_neg (by simp), hinside _ _ _ hopened' hnext]
  cases ending with
  | inComment =>
    simp only [Ending.tokensAfter, Ending.outside, nest, closeAll]
    simp
  | closed =>
    simp only [Ending.tokensAfter, Ending.outside, tokens_endTag hclose, nest]
    simp
  | inText =>
    simp only [Ending.tokensAfter, Ending.outside, tokens_endTag hclose, nest]
    simp

end Reads

end IconMarkup.Html
