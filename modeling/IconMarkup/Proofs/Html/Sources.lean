import IconMarkup.Proofs.Html.Nesting
import IconMarkup.Proofs.Html.Tokens

/-!
# What is read from HTML text

What holds of every token that a text is read as (`isRead_tokens`) and of every node of its tree
(`isRead_ofText`): text has no `<` in it, names consist of the characters of names, comments end
where they are closed, attributes are arranged, and an element whose name opens nothing is empty.
A comment that is never closed is the last thing in its element and in all elements around it
(`openLastAmong_ofText`).
-/

namespace IconMarkup.Html

/-! ### Tokens -/

/-- What a start tag is read as. -/
structure IsReadStart (tag : List Char) (attributes : List SourceAttribute) : Prop where
  name : IsName tag
  names : ∀ entry ∈ attributes, IsName entry.1
  nameless : tag = [] → ∀ entry ∈ attributes.head?, entry.1 = []

/-- Whether text is what is read as text between tags. -/
def IsReadText (content : List Char) : Prop :=
  content ≠ [] ∧ '<' ∉ content

/-- Whether a comment is what is read as one: nothing if it is not closed, and otherwise the text
from the character before the exclamation mark to its end. -/
def IsReadComment (source : List Char) : Prop :=
  source = [] ∨ ∃ before body, source = before :: '!' :: body ∧ ['-', '-'] <+: body ∧
    readComment? body = some (body, [])

/-- Whether a token is one that can be read. -/
def Token.IsRead : Token → Prop
  | .text content => IsReadText content
  | .start name attributes _ => IsReadStart name attributes
  | .finish _ => True
  | .comment source => IsReadComment source

private theorem isName_nil : IsName [] := ⟨by simp, by simp⟩

/-- What is read as a name where no slash comes first is one. -/
private theorem isName_takeWhile {cs : List Char} (h : cs.head? ≠ some '/') :
    IsName (cs.takeWhile isNameChar) where
  chars _ hc := List.mem_takeWhile_imp hc
  noSlash := by
    cases cs with
    | nil => simp
    | cons c cs =>
      rw [List.takeWhile_cons]
      split
      · exact h
      · simp

/-- The name of an attribute is as long as there are name characters. -/
private theorem readAttribute_name (cs : List Char) :
    (readAttribute cs).1.1 = cs.takeWhile isNameChar := by
  simp only [readAttribute, span]
  split <;> rfl

/-- The attributes that are read have names, and the first one has an empty name if no name
begins there. -/
private theorem names_of_readAttributes {cs rest : List Char} {attributes : List SourceAttribute}
    (h : readAttributes cs = some (attributes, rest)) :
    (∀ entry ∈ attributes, IsName entry.1) ∧
      ((∀ c ∈ (skipTagBlanks cs).head?, isNameChar c = false) →
        ∀ entry ∈ attributes.head?, entry.1 = []) := by
  induction hn : cs.length using Nat.strongRecOn generalizing cs attributes with
  | ind n ih =>
    have hskip := length_skipTagBlanks_le cs
    rw [readAttributes] at h
    split at h
    · cases h
    · rename_i c tail hshape
      rw [hshape]
      rw [hshape, List.length_cons] at hskip
      split at h
      · cases h
        exact ⟨by simp, by simp⟩
      · rename_i hend
        -- the name of the first attribute is what its first character begins
        have hentry := readAttribute_name (c :: tail)
        have hname : IsName ((c :: tail).takeWhile isNameChar) :=
          isName_takeWhile (by simpa using (not_or.mp hend).1)
        have hnameless : (∀ d ∈ (c :: tail).head?, isNameChar d = false) →
            (c :: tail).takeWhile isNameChar = [] := fun hc => by
          rw [List.takeWhile_cons_of_neg (by simp [hc c rfl])]
        have hlength := length_readAttribute_le (c :: tail)
        split at h
        · cases h
        · rename_i entry d rest' hread
          rw [hread] at hentry hlength
          simp only [List.length_cons] at hlength
          rw [← hentry] at hname hnameless
          split at h
          · cases h
            exact ⟨by simpa using hname, by simpa using hnameless⟩
          · obtain ⟨⟨more, rest''⟩, hmore, he⟩ := Option.map_eq_some_iff.mp h
            cases he
            have hothers := (ih _ (by omega) hmore rfl).1
            have hstray : ∀ other ∈ strayAttributes d, IsName other.1 := by
              intro other hother
              rw [List.eq_of_mem_replicate hother]
              exact isName_nil
            refine ⟨List.forall_mem_cons.mpr ⟨hname, ?_⟩, by simpa using hnameless⟩
            exact List.forall_mem_append.mpr ⟨hstray, hothers⟩

private theorem isRead_readStart {cs : List Char} (hslash : cs.head? ≠ some '/')
    (hblank : ∀ c ∈ cs.head?, isTagBlank c = false) : ∀ token ∈ (readStart cs).1, token.IsRead := by
  intro token htoken
  have hstart : ∀ {attributes rest},
      readAttributes (skipTagBlanks (cs.dropWhile isNameChar)) = some (attributes, rest) →
        IsReadStart (cs.takeWhile isNameChar) attributes := by
    intro attributes rest hread
    rw [readAttributes_skipTagBlanks] at hread
    obtain ⟨hnames, hfirst⟩ := names_of_readAttributes hread
    refine ⟨isName_takeWhile hslash, hnames, fun hnil => hfirst ?_⟩
    -- without a name the attributes begin where the name was looked for
    cases cs with
    | nil => simp [skipTagBlanks]
    | cons c cs =>
      have hc : isNameChar c = false := by
        by_contra hc
        rw [List.takeWhile_cons_of_pos (by simpa using hc)] at hnil
        cases hnil
      rw [List.dropWhile_cons_of_neg (by simp [hc]),
        skipTagBlanks_of_head (by simpa using hblank c rfl)]
      simpa using hc
  simp only [readStart, span] at htoken
  split at htoken
  · cases htoken
  · rename_i hread
    cases htoken
    exact hstart hread
  · rename_i hread
    cases htoken
    exact hstart hread
  · cases htoken
  · cases htoken

/-- A tag is read with the properties of what is read, whatever comes before it. -/
private theorem isRead_readTag (before : Char) {cs : List Char}
    (hblank : ∀ c ∈ cs.head?, isTagBlank c = false) :
    ∀ token ∈ (readTag before cs).1, token.IsRead := by
  intro token htoken
  unfold readTag at htoken
  split at htoken
  · cases htoken
  · cases htoken
    trivial
  · rename_i cs
    split at htoken
    · rename_i body rest hread
      cases htoken
      obtain ⟨happend, hmore⟩ := readComment?_eq_some hread
      have hbody := hmore []
      rw [List.append_nil] at hbody
      have hprefix : body <+: ['-', '-'] ++ cs := ⟨rest, happend.symm⟩
      exact .inr ⟨before, body, rfl, List.prefix_of_prefix_length_le (List.prefix_append ..) hprefix
        (Nat.le_of_succ_le (length_of_readComment? hread)), hbody⟩
    · cases htoken
      exact .inl rfl
  · cases htoken
  · rename_i hslash _ _
    refine isRead_readStart ?_ hblank token htoken
    intro hhead
    obtain ⟨more, rfl⟩ := List.head?_eq_some_iff.mp hhead
    exact hslash more rfl

/-- Every token of a text is one that can be read. -/
theorem isRead_tokens (cs : List Char) : ∀ token ∈ tokens cs, token.IsRead := by
  fun_induction tokens cs with
  | case1 => simp
  | case2 cs read ih =>
    refine List.forall_mem_append.mpr ⟨fun token htoken => ?_, ih⟩
    refine isRead_readTag _ (fun d hd => ?_) token (Option.mem_toList.mp htoken)
    have hhead := List.head?_dropWhile_not isTagBlank cs
    rw [show (cs.dropWhile isTagBlank).head? = some d from hd] at hhead
    simpa using hhead
  | case3 c cs hc ih =>
    refine List.forall_mem_cons.mpr ⟨⟨by simp, ?_⟩, ih⟩
    rw [List.mem_cons, not_or]
    exact ⟨Ne.symm hc, fun hmem => by simpa using List.mem_takeWhile_imp hmem⟩

/-! ### Nodes -/

/-- The last value of a name is an attribute of that name with a value, or there is none. -/
theorem lastValue_cases (name : String) (attributes : List SourceAttribute) :
    lastValue name attributes = [] ∨ ∃ value, (name.toList, some value) ∈ attributes ∧
      lastValue name attributes = [(name.toList, some value)] := by
  unfold lastValue
  split
  · rename_i key value hlast
    obtain ⟨hmem, hkey⟩ := List.mem_filter.mp (List.mem_of_getLast? hlast)
    obtain rfl : key = name.toList := of_decide_eq_true hkey
    exact .inr ⟨value, hmem, rfl⟩
  · exact .inl rfl

/-- Arranging adds no attribute. -/
private theorem mem_of_mem_arrange {attributes : List SourceAttribute} {entry : SourceAttribute}
    (h : entry ∈ arrange attributes) : entry ∈ attributes := by
  have hlast : ∀ name : String, entry ∈ lastValue name attributes → entry ∈ attributes := by
    intro name hentry
    rcases lastValue_cases name attributes with hnil | ⟨value, hmem, hvalue⟩
    · rw [hnil] at hentry
      cases hentry
    · rw [hvalue] at hentry
      rwa [List.mem_singleton.mp hentry]
  rw [arrange, List.mem_append, List.mem_append] at h
  rcases h with (h | h) | h
  · exact List.mem_of_mem_filter h
  · exact hlast _ h
  · exact hlast _ h

/-- Where the only entry of a name is its last value, it stays the last value. -/
private theorem lastValue_of_filter_eq {name : String} {attributes arranged : List SourceAttribute}
    (h : arranged.filter (·.1 = name.toList) = lastValue name attributes) :
    lastValue name arranged = lastValue name attributes := by
  rw [lastValue, h]
  rcases lastValue_cases name attributes with hnil | ⟨value, -, hvalue⟩
  · rw [hnil]
    rfl
  · rw [hvalue]
    rfl

/-- Attributes are arranged once and for all. -/
theorem arrange_arrange (attributes : List SourceAttribute) :
    arrange (arrange attributes) = arrange attributes := by
  let isOther := fun entry : SourceAttribute =>
    decide (entry.1 ≠ "id".toList ∧ entry.1 ≠ "class".toList)
  have hother : ∀ {name : String}, name = "id" ∨ name = "class" →
      (attributes.filter isOther).filter (·.1 = name.toList) = [] := by
    intro name hname
    refine List.filter_eq_nil_iff.mpr fun entry hentry hkind => ?_
    obtain ⟨hid, hclass⟩ := of_decide_eq_true (List.mem_filter.mp hentry).2
    have hkind := of_decide_eq_true hkind
    rcases hname with rfl | rfl
    · exact hid hkind
    · exact hclass hkind
  -- the three parts are told apart by their names
  have hparts : (arrange attributes).filter isOther = attributes.filter isOther ∧
      (arrange attributes).filter (·.1 = "id".toList) = lastValue "id" attributes ∧
      (arrange attributes).filter (·.1 = "class".toList) = lastValue "class" attributes := by
    simp only [arrange, List.filter_append]
    rw [hother (.inl rfl), hother (.inr rfl), List.filter_filter]
    rcases lastValue_cases "id" attributes with hid | ⟨_, -, hid⟩ <;>
      rcases lastValue_cases "class" attributes with hclass | ⟨_, -, hclass⟩ <;>
      simp [hid, hclass, isOther]
  obtain ⟨hothers, hid, hclass⟩ := hparts
  rw [arrange, hothers, lastValue_of_filter_eq hid, lastValue_of_filter_eq hclass]
  rfl

/-- Whether a node is one that can be read. -/
def SourceNode.IsRead : SourceNode → Prop
  | .element name attributes children =>
    IsReadStart name attributes ∧ arrange attributes = attributes ∧
      (opensNothing name = true → children = [])
  | .text content => IsReadText content
  | .comment source => IsReadComment source

/-- What is read as a start tag is one with its attributes arranged. -/
private theorem IsReadStart.arrange {name : List Char} {attributes : List SourceAttribute}
    (h : IsReadStart name attributes) : IsReadStart name (arrange attributes) where
  name := h.name
  names entry hentry := h.names entry (mem_of_mem_arrange hentry)
  nameless hnil := by
    have hfirst := h.nameless hnil
    cases attributes with
    | nil => simp [Html.arrange, lastValue]
    | cons first others =>
      have hname : first.1 = [] := hfirst first rfl
      simp [Html.arrange, hname]

private theorem Token.IsRead.ensures {token : Token} (h : token.IsRead) :
    token.Ensures SourceNode.IsRead := by
  cases token with
  | text content => exact h
  | start name attributes selfClosing =>
    have hstart : IsReadStart name attributes := h
    refine ⟨⟨hstart.arrange, arrange_arrange _, fun _ => rfl⟩, fun hopens children => ?_⟩
    exact ⟨hstart.arrange, arrange_arrange _, fun hname => by rw [hopens] at hname; cases hname⟩
  | finish name => exact trivial
  | comment source => exact h

/-- Every node of a text is one that can be read. -/
theorem isRead_ofText (cs : List Char) :
    ThroughoutAll SourceNode.IsRead (SourceNode.ofText cs) :=
  throughout_ofText fun token htoken => (isRead_tokens cs token htoken).ensures

/-! ### A comment that is not closed -/

mutual

/-- Whether a node ends in a comment that is not closed. -/
def SourceNode.isOpen : SourceNode → Bool
  | .element _ _ children => isOpenAmong children
  | .text _ => false
  | .comment source => source.isEmpty

/-- Whether a comment among nodes is not closed. -/
def isOpenAmong : List SourceNode → Bool
  | [] => false
  | node :: rest => node.isOpen || isOpenAmong rest

end

mutual

/-- Whether nothing inside a node comes after a comment that is not closed. -/
def SourceNode.OpenLast : SourceNode → Prop
  | .element _ _ children => OpenLastAmong children
  | .text _ => True
  | .comment _ => True

/-- Whether nothing among nodes comes after a comment that is not closed. -/
def OpenLastAmong : List SourceNode → Prop
  | [] => True
  | node :: rest => node.OpenLast ∧ (node.isOpen = true → rest = []) ∧ OpenLastAmong rest

end

mutual

private theorem SourceNode.isOpen_eq_false :
    ∀ node : SourceNode, node.Throughout (· ≠ .comment []) → node.isOpen = false
  | .element name attributes children, h => by
    rw [SourceNode.isOpen]
    exact isOpenAmong_eq_false children h.2
  | .text content, _ => rfl
  | .comment source, h => by
    have hne : SourceNode.comment source ≠ .comment [] := h
    rw [SourceNode.isOpen, List.isEmpty_eq_false_iff]
    rintro rfl
    exact hne rfl

/-- Without a comment that is not closed, no node is open. -/
private theorem isOpenAmong_eq_false :
    ∀ nodes : List SourceNode, ThroughoutAll (· ≠ .comment []) nodes → isOpenAmong nodes = false
  | [], _ => rfl
  | node :: rest, h => by
    rw [isOpenAmong, SourceNode.isOpen_eq_false node h.1, isOpenAmong_eq_false rest h.2]
    rfl

end

mutual

private theorem SourceNode.openLast_of_closed :
    ∀ node : SourceNode, node.Throughout (· ≠ .comment []) → node.OpenLast
  | .element name attributes children, h => by
    rw [SourceNode.OpenLast]
    exact openLastAmong_of_closed children h.2
  | .text content, _ => trivial
  | .comment source, _ => trivial

private theorem openLastAmong_of_closed :
    ∀ nodes : List SourceNode, ThroughoutAll (· ≠ .comment []) nodes → OpenLastAmong nodes
  | [], _ => trivial
  | node :: rest, h => by
    refine ⟨SourceNode.openLast_of_closed node h.1, fun hopen => ?_,
      openLastAmong_of_closed rest h.2⟩
    rw [SourceNode.isOpen_eq_false node h.1] at hopen
    cases hopen

end

/-- Nodes that are not open may come before others. -/
private theorem OpenLastAmong.append {first second : List SourceNode}
    (hfirst : ThroughoutAll (· ≠ .comment []) first) (hsecond : OpenLastAmong second) :
    OpenLastAmong (first ++ second) := by
  induction first with
  | nil => exact hsecond
  | cons node rest ih =>
    refine ⟨SourceNode.openLast_of_closed node hfirst.1, fun hopen => ?_, ih hfirst.2⟩
    rw [SourceNode.isOpen_eq_false node hfirst.1] at hopen
    cases hopen

/-- Closing what is open puts nothing after a comment that is not closed. -/
private theorem openLastAmong_closeAll {opened : List OpenElement} {inside : List SourceNode}
    (hopened : ∀ element ∈ opened, element.Keeps (· ≠ .comment []))
    (hinside : OpenLastAmong inside.reverse) : OpenLastAmong (closeAll opened inside) := by
  induction opened generalizing inside with
  | nil => exact hinside
  | cons innermost outer ih =>
    obtain ⟨hinnermost, houter⟩ := List.forall_mem_cons.mp hopened
    refine ih houter ?_
    rw [List.reverse_cons]
    exact .append (throughoutAll_reverse.mpr hinnermost.before) ⟨hinside, fun _ => rfl, trivial⟩

/-- After a comment that is not closed nothing is left to read. -/
private theorem readTag_eq_openComment {before : Char} {cs : List Char}
    (h : (readTag before cs).1 = some (.comment [])) : (readTag before cs).2 = [] := by
  unfold readTag at h ⊢
  split at h
  · rfl
  · cases h
  · split at h
    · cases h
    · rfl
  · cases h
  · simp only [readStart] at h
    split at h <;> cases h

/-- A comment that is not closed is the last token. -/
private theorem exists_closed_tokens (cs : List Char) :
    ∃ closed, (∀ token ∈ closed, token ≠ .comment []) ∧
      (tokens cs = closed ∨ tokens cs = closed ++ [.comment []]) := by
  fun_induction tokens cs with
  | case1 => exact ⟨[], by simp, .inl rfl⟩
  | case2 cs read ih =>
    obtain ⟨closed, hclosed, hrest⟩ := ih
    by_cases hopen : read.1 = some (.comment [])
    · have hnil : read.2 = [] := readTag_eq_openComment hopen
      refine ⟨[], by simp, .inr ?_⟩
      rw [hopen, hnil, tokens]
      rfl
    · refine ⟨read.1.toList ++ closed, ?_, ?_⟩
      · refine List.forall_mem_append.mpr ⟨fun token htoken htokenNil => hopen ?_, hclosed⟩
        rw [Option.mem_toList.mp htoken, htokenNil]
      · rcases hrest with hrest | hrest <;> rw [hrest]
        · exact .inl rfl
        · exact .inr (List.append_assoc ..).symm
  | case3 c cs hc ih =>
    obtain ⟨closed, hclosed, hrest⟩ := ih
    refine ⟨.text (c :: cs.takeWhile (· != '<')) :: closed, by simpa using hclosed, ?_⟩
    rcases hrest with hrest | hrest <;> rw [hrest]
    · exact .inl rfl
    · exact .inr rfl

/-- Nothing in the tree of a text comes after a comment that is not closed. -/
theorem openLastAmong_ofText (cs : List Char) : OpenLastAmong (SourceNode.ofText cs) := by
  obtain ⟨closed, hclosed, htokens⟩ := exists_closed_tokens cs
  have hensures : ∀ token ∈ closed, token.Ensures (· ≠ .comment []) := by
    intro token htoken
    cases token with
    | text content => simp [Token.Ensures]
    | start name attributes selfClosing => simp [Token.Ensures]
    | finish name => trivial
    | comment source => simpa [Token.Ensures] using hclosed _ htoken
  obtain ⟨opened, inside, hopened, hinside, hnest⟩ :=
    @exists_nest_append _ closed [] [] hensures (by simp) trivial
  have hinside' := throughoutAll_reverse.mpr hinside
  rw [SourceNode.ofText]
  rcases htokens with htokens | htokens <;> rw [htokens]
  · have hall := hnest []
    rw [List.append_nil] at hall
    rw [hall, nest]
    exact openLastAmong_closeAll hopened (openLastAmong_of_closed _ hinside')
  · rw [hnest, nest, nest]
    refine openLastAmong_closeAll hopened ?_
    rw [List.reverse_cons]
    exact .append hinside' ⟨trivial, fun _ => rfl, trivial⟩

end IconMarkup.Html
