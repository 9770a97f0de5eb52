import IconMarkup.Html.Document
import IconMarkup.Proofs.Html.Sources
import IconMarkup.Proofs.Tree.AttributeOrder

/-!
# How many attributes start tags have

A start tag with at most two attributes besides `id` and `class` keeps them in the order in which
they were written; among more there is no order to rely on. `HasFewAttributes` says that a text has
no other start tags, and the tree of the text tells whether it has
(`throughoutAll_ofText_iff`). Decoding joins attributes of one name and adds none
(`hasFewOthers_decodeAttributes`).
-/

namespace IconMarkup.Html

/-- The attributes of a start tag besides `id` and `class`, each as often as it is written. -/
def othersOf (attributes : List SourceAttribute) : List SourceAttribute :=
  attributes.filter fun entry => entry.1 ≠ "id".toList ∧ entry.1 ≠ "class".toList

/-- Whether a token is no start tag with more than two attributes besides `id` and `class`. -/
def Token.HasFewAttributes : Token → Prop
  | .start _ attributes _ => (othersOf attributes).length ≤ 2
  | _ => True

instance : DecidablePred Token.HasFewAttributes
  | .start _ attributes _ => inferInstanceAs (Decidable ((othersOf attributes).length ≤ 2))
  | .text _ | .finish _ | .comment _ => .isTrue trivial

/-- Whether no start tag of an HTML text has more than two attributes besides `id` and `class`. -/
def HasFewAttributes (text : String) : Prop :=
  ∀ token ∈ tokens (splitDoctype text.toList).2, token.HasFewAttributes

instance (text : String) : Decidable (HasFewAttributes text) :=
  inferInstanceAs (Decidable (∀ token ∈ tokens (splitDoctype text.toList).2, _))

/-- Whether a node is no element with more than two attributes besides `id` and `class`. -/
def SourceNode.HasFewAttributes : SourceNode → Prop
  | .element _ attributes _ => (othersOf attributes).length ≤ 2
  | _ => True

/-! ### Start tags and elements -/

private theorem othersOf_lastValue {name : String} (hname : name = "id" ∨ name = "class")
    (attributes : List SourceAttribute) : othersOf (lastValue name attributes) = [] := by
  rcases lastValue_cases name attributes with hnil | ⟨value, -, hvalue⟩
  · rw [hnil]
    rfl
  · rw [hvalue]
    rcases hname with rfl | rfl <;> simp [othersOf]

/-- Arranging attributes moves only `id` and `class`. -/
theorem othersOf_arrange (attributes : List SourceAttribute) :
    othersOf (arrange attributes) = othersOf attributes := by
  have happend : ∀ first second : List SourceAttribute,
      othersOf (first ++ second) = othersOf first ++ othersOf second := fun _ _ =>
    List.filter_append ..
  have hothers : othersOf (othersOf attributes) = othersOf attributes :=
    List.filter_eq_self.mpr fun _ hentry => (List.mem_filter.mp hentry).2
  rw [arrange, ← othersOf, happend, happend, othersOf_lastValue (.inl rfl),
    othersOf_lastValue (.inr rfl), List.append_nil, List.append_nil, hothers]

/-- Whether an element has few attributes can be told before they are arranged. -/
theorem hasFewAttributes_arrange_iff {name : List Char} {attributes : List SourceAttribute}
    {children : List SourceNode} :
    (SourceNode.element name (arrange attributes) children).HasFewAttributes ↔
      (othersOf attributes).length ≤ 2 := by
  rw [SourceNode.HasFewAttributes, othersOf_arrange]

private theorem Token.HasFewAttributes.ensures {token : Token} (h : token.HasFewAttributes) :
    token.Ensures SourceNode.HasFewAttributes := by
  cases token with
  | start name attributes selfClosing =>
    exact ⟨hasFewAttributes_arrange_iff.mpr h, fun _ _ => hasFewAttributes_arrange_iff.mpr h⟩
  | text content => trivial
  | finish name => trivial
  | comment source => trivial

private theorem hasFewAttributes_of_closeAll {opened : List OpenElement} {inside : List SourceNode}
    (h : ThroughoutAll SourceNode.HasFewAttributes (closeAll opened inside)) :
    (∀ element ∈ opened, element.Keeps SourceNode.HasFewAttributes) ∧
      ThroughoutAll SourceNode.HasFewAttributes inside := by
  induction opened generalizing inside with
  | nil => exact ⟨by simp, throughoutAll_reverse.mp h⟩
  | cons innermost outer ih =>
    obtain ⟨houter, ⟨hself, hinside⟩, hbefore⟩ := ih h
    exact ⟨List.forall_mem_cons.mpr ⟨⟨fun _ => hself, hbefore⟩, houter⟩,
      throughoutAll_reverse.mp hinside⟩

/-- Each start tag is an element of the tree, with its attributes, whatever is open. -/
private theorem hasFewAttributes_of_nest {tokens : List Token} {opened : List OpenElement}
    {inside : List SourceNode}
    (h : ThroughoutAll SourceNode.HasFewAttributes (nest opened inside tokens)) :
    (∀ token ∈ tokens, token.HasFewAttributes) ∧
      (∀ element ∈ opened, element.Keeps SourceNode.HasFewAttributes) ∧
        ThroughoutAll SourceNode.HasFewAttributes inside := by
  fun_induction nest opened inside tokens with
  | case1 opened inside => exact ⟨by simp, hasFewAttributes_of_closeAll h⟩
  | case2 opened inside content rest ih =>
    obtain ⟨hrest, hopened, hinside⟩ := ih h
    exact ⟨List.forall_mem_cons.mpr ⟨trivial, hrest⟩, hopened, hinside.2⟩
  | case3 opened inside source rest ih =>
    obtain ⟨hrest, hopened, hinside⟩ := ih h
    exact ⟨List.forall_mem_cons.mpr ⟨trivial, hrest⟩, hopened, hinside.2⟩
  | case4 opened inside name attributes selfClosing rest hleaf ih =>
    obtain ⟨hrest, hopened, ⟨hfew, -⟩, hinside⟩ := ih h
    have hstart := hasFewAttributes_arrange_iff.mp hfew
    exact ⟨List.forall_mem_cons.mpr ⟨hstart, hrest⟩, hopened, hinside⟩
  | case5 opened inside name attributes selfClosing rest hopens ih =>
    obtain ⟨hrest, hopened, -⟩ := ih h
    obtain ⟨hinnermost, houter⟩ := List.forall_mem_cons.mp hopened
    have hstart := hasFewAttributes_arrange_iff.mp (hinnermost.element [])
    exact ⟨List.forall_mem_cons.mpr ⟨hstart, hrest⟩, houter, hinnermost.before⟩
  | case6 inside name rest ih =>
    obtain ⟨hrest, hopened, hinside⟩ := ih h
    exact ⟨List.forall_mem_cons.mpr ⟨trivial, hrest⟩, hopened, hinside⟩
  | case7 innermost outer inside rest ih =>
    obtain ⟨hrest, houter, ⟨hself, hinside⟩, hbefore⟩ := ih h
    exact ⟨List.forall_mem_cons.mpr ⟨trivial, hrest⟩,
      List.forall_mem_cons.mpr ⟨⟨fun _ => hself, hbefore⟩, houter⟩,
      throughoutAll_reverse.mp hinside⟩
  | case8 innermost outer inside name rest hother ih =>
    obtain ⟨hrest, hopened, hinside⟩ := ih h
    exact ⟨List.forall_mem_cons.mpr ⟨trivial, hrest⟩, hopened, hinside⟩

/-- The start tags of a text have few attributes exactly if the elements of its tree do. -/
theorem throughoutAll_ofText_iff {cs : List Char} :
    ThroughoutAll SourceNode.HasFewAttributes (SourceNode.ofText cs) ↔
      ∀ token ∈ tokens cs, token.HasFewAttributes :=
  ⟨fun h => (hasFewAttributes_of_nest h).1,
    fun h => throughout_ofText fun token htoken => (h token htoken).ensures⟩

/-! ### Attributes of documents -/

/-- Whether there are at most two attributes besides `id` and `class`. -/
def HasFewOthers (attributes : Attributes) : Prop :=
  (attributes.toList.filter fun entry => entry.1 ≠ "id" ∧ entry.1 ≠ "class").length ≤ 2

/-- Attributes of a document are written as many as they are. -/
theorem hasFewOthers_iff_sourceEntry {attributes : Attributes} :
    HasFewOthers attributes ↔ (othersOf (attributes.toList.map sourceEntry)).length ≤ 2 := by
  have hkind : ∀ entry : String × String,
      decide ((sourceEntry entry).1 ≠ "id".toList ∧ (sourceEntry entry).1 ≠ "class".toList) =
        decide (entry.1 ≠ "id" ∧ entry.1 ≠ "class") := fun entry => by
    simp only [sourceEntry, ne_eq, String.toList_inj]
  have hsame := List.filter_congr (l := attributes.toList) fun entry _ => hkind entry
  rw [HasFewOthers, othersOf, List.filter_map, List.length_map, ← hsame]
  rfl

/-- Decoding joins attributes of one name and adds none. -/
theorem hasFewOthers_decodeAttributes {attributes : List SourceAttribute}
    (h : (othersOf attributes).length ≤ 2) : HasFewOthers (decodeAttributes attributes) := by
  let isOther := fun name : String => decide (name ≠ "id" ∧ name ≠ "class")
  let names := attributes.map fun entry => String.ofList entry.1
  have hmap := Attributes.isMapOf_ofList (attributes.map fun entry =>
    (String.ofList entry.1, String.ofList (Text.unescape (entry.2.getD []))))
  have hsubset : (decodeAttributes attributes).names.filter isOther ⊆ names.filter isOther := by
    intro name hname
    obtain ⟨hmem, hother⟩ := List.mem_filter.mp hname
    have hset := (hmap.mem_names_iff name).mp hmem
    rw [List.map_map] at hset
    exact List.mem_filter.mpr ⟨hset, hother⟩
  have hle := (List.subperm_of_subset (hmap.distinct.filter _) hsubset).length_le
  have hkind : ∀ entry : SourceAttribute, isOther (String.ofList entry.1) =
      decide (entry.1 ≠ "id".toList ∧ entry.1 ≠ "class".toList) := fun entry => by
    simp only [isOther, ne_eq, ← String.toList_inj, String.toList_ofList]
  rw [Attributes.names, List.filter_map, List.length_map, List.filter_map, List.length_map] at hle
  have hothers : attributes.filter (isOther ∘ fun entry => String.ofList entry.1) =
      othersOf attributes := List.filter_congr fun entry _ => hkind entry
  rw [hothers] at hle
  exact hle.trans h

end IconMarkup.Html
