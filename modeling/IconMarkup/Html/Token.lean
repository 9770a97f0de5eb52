/-!
# Tokens of HTML text

A forgiving reader of tags. Text up to the next `<` is one token; after a `<` there is an end tag,
a comment, a declaration or a start tag. A tag that cannot be read vanishes, and reading goes on
where it gave up, so that every text has tokens. Only space and line feed count as blanks inside a
tag, and names may be empty and hold `:`, `+` and `/`.

Some rules skip a single byte. When that byte begins a character outside ASCII, the remaining bytes
of the character are read on their own: between attributes each counts as an attribute without a
name, in running text as a replacement character.

Beside each reader stands how much it leaves unread at most (`length_readAttributes_le`,
`length_readTag_le`); `tokens` ends because a tag leaves less than there was.
-/

namespace IconMarkup.Html

/-! ### Characters and tokens -/

/-- A blank inside a tag. -/
def isTagBlank (c : Char) : Bool :=
  c == ' ' || c == '\n'

/-- A character of a name. -/
def isNameChar (c : Char) : Bool :=
  c.isAlphanum || c == '-' || c == '_' || c == ':' || c == '+' || c == '/'

/-- A character of an attribute value without quotes. -/
def isBareValueChar (c : Char) : Bool :=
  !(isTagBlank c || c == '/' || c == '>')

/-- An attribute as written: its name, and its value if it has one. -/
abbrev SourceAttribute := List Char × Option (List Char)

/-- A piece of HTML text. -/
inductive Token where
  /-- Text outside tags. -/
  | text (content : List Char)
  /-- A start tag. -/
  | start (name : List Char) (attributes : List SourceAttribute) (selfClosing : Bool)
  /-- An end tag. -/
  | finish (name : List Char)
  /-- A comment with its delimiters; empty if it never ends. -/
  | comment (source : List Char)
  deriving DecidableEq, Repr

/-- Skips blanks. -/
def skipTagBlanks (cs : List Char) : List Char :=
  cs.dropWhile isTagBlank

/-- Cuts after the leading characters of a kind. -/
def span (isKind : Char → Bool) (cs : List Char) : List Char × List Char :=
  (cs.takeWhile isKind, cs.dropWhile isKind)

/-- Skipping leaves no more than there was. -/
theorem length_skipTagBlanks_le (cs : List Char) : (skipTagBlanks cs).length ≤ cs.length :=
  (List.dropWhile_sublist _).length_le

/-! ### Attributes -/

/-- Reads the value after an equals sign: up to the closing quote, which is left, or as far as a
value without quotes goes. -/
def readValue (cs : List Char) : List Char × List Char :=
  match skipTagBlanks cs with
  | '"' :: rest => span (· != '"') rest
  | '\'' :: rest => span (· != '\'') rest
  | rest => span isBareValueChar rest

/-- A value leaves no more than there was: blanks and an opening quote are skipped, and then a piece
is cut off. -/
theorem length_readValue_le (cs : List Char) : (readValue cs).2.length ≤ cs.length := by
  have h := length_skipTagBlanks_le cs
  unfold readValue
  split
  · rename_i rest e
    rw [e, List.length_cons] at h
    exact Nat.le_trans (List.dropWhile_sublist _).length_le (by omega)
  · rename_i rest e
    rw [e, List.length_cons] at h
    exact Nat.le_trans (List.dropWhile_sublist _).length_le (by omega)
  · exact Nat.le_trans (List.dropWhile_sublist _).length_le h

/-- Reads an attribute: a name, and a value if an equals sign follows. -/
def readAttribute (cs : List Char) : SourceAttribute × List Char :=
  let (name, rest) := span isNameChar cs
  match skipTagBlanks rest with
  | '=' :: rest =>
    let (value, rest) := readValue rest
    ((name, some value), rest)
  | rest => ((name, none), rest)

/-- An attribute may be empty, so that as much may be left as there was. -/
theorem length_readAttribute_le (cs : List Char) : (readAttribute cs).2.length ≤ cs.length := by
  have h : (skipTagBlanks (cs.dropWhile isNameChar)).length ≤ cs.length :=
    Nat.le_trans (length_skipTagBlanks_le _) (List.dropWhile_sublist _).length_le
  unfold readAttribute
  simp only [span]
  split
  · rename_i rest e
    rw [e, List.length_cons] at h
    exact Nat.le_trans (length_readValue_le _) (by omega)
  · exact h

/-- The attributes that the remaining bytes of a half-skipped character are read as. -/
def strayAttributes (c : Char) : List SourceAttribute :=
  List.replicate (c.utf8Size - 1) ([], none)

/-- Reads attributes up to `/` or `>`; `none` if the text ends first. After each attribute one byte
is skipped, whether it is a closing quote or not. -/
def readAttributes (cs : List Char) : Option (List SourceAttribute × List Char) :=
  match _h : skipTagBlanks cs with
  | [] => none
  | c :: tail =>
    if c = '/' ∨ c = '>' then some ([], c :: tail)
    else
      match _hr : readAttribute (c :: tail) with
      | (_, []) => none
      | (entry, d :: rest) =>
        if d = '/' ∨ d = '>' then some ([entry], d :: rest)
        else
          (readAttributes rest).map fun (entries, rest) =>
            (entry :: strayAttributes d ++ entries, rest)
termination_by cs.length
decreasing_by
  have h₁ := length_skipTagBlanks_le cs
  have h₂ := length_readAttribute_le (c :: tail)
  rw [_hr] at h₂
  rw [_h] at h₁
  simp only [List.length_cons] at h₁ h₂
  omega

/-- Attributes leave no more than there was, by induction on what is left after each of them. -/
theorem length_readAttributes_le {cs rest : List Char} {attributes : List SourceAttribute}
    (h : readAttributes cs = some (attributes, rest)) : rest.length ≤ cs.length := by
  induction hn : cs.length using Nat.strongRecOn generalizing cs attributes with
  | ind n ih =>
    have h₁ := length_skipTagBlanks_le cs
    rw [readAttributes] at h
    split at h
    · simp at h
    · rename_i c tail e
      rw [e, List.length_cons] at h₁
      split at h
      · simp only [Option.some.injEq, Prod.mk.injEq] at h
        rw [← h.2, List.length_cons]
        omega
      · have h₂ := length_readAttribute_le (c :: tail)
        split at h
        · simp at h
        · rename_i entry d rest' e'
          rw [e'] at h₂
          simp only [List.length_cons] at h₂
          split at h
          · simp only [Option.some.injEq, Prod.mk.injEq] at h
            rw [← h.2, List.length_cons]
            omega
          · obtain ⟨⟨more, rest''⟩, hm, he⟩ := Option.map_eq_some_iff.1 h
            simp only [Prod.mk.injEq] at he
            obtain ⟨-, rfl⟩ := he
            have := ih _ (by omega) hm rfl
            omega

/-! ### Comments and declarations -/

/-- Reads a comment from its first `--` on: what it consists of and what follows. Two hyphens that
`>` does not follow take the next character with them. -/
def readComment? : List Char → Option (List Char × List Char)
  | '-' :: '-' :: '>' :: rest => some (['-', '-', '>'], rest)
  | '-' :: '-' :: c :: rest =>
    (readComment? rest).map fun (body, rest) => ('-' :: '-' :: c :: body, rest)
  | c :: rest => (readComment? rest).map fun (body, rest) => (c :: body, rest)
  | [] => none

/-- A comment leaves less than there was. -/
theorem length_readComment? {cs body rest : List Char}
    (h : readComment? cs = some (body, rest)) : rest.length < cs.length := by
  fun_induction readComment? cs generalizing body with
  | case1 rest' =>
    simp only [Option.some.injEq, Prod.mk.injEq] at h
    rw [← h.2]
    simp only [List.length_cons]
    omega
  | case2 c rest' _ ih =>
    obtain ⟨⟨b, r⟩, hr, he⟩ := Option.map_eq_some_iff.1 h
    simp only [Prod.mk.injEq] at he
    obtain ⟨-, rfl⟩ := he
    have := ih hr
    simp only [List.length_cons]
    omega
  | case3 c rest' _ _ ih =>
    obtain ⟨⟨b, r⟩, hr, he⟩ := Option.map_eq_some_iff.1 h
    simp only [Prod.mk.injEq] at he
    obtain ⟨-, rfl⟩ := he
    have := ih hr
    simp only [List.length_cons]
    omega
  | case4 => simp at h

/-- What the remaining bytes of a half-skipped character are read as in running text. -/
def strayText (c : Char) : List Char :=
  List.replicate (c.utf8Size - 1) '\ufffd'

/-- Compares with a word in lower case, whatever the case of ASCII letters. -/
def isWordInAnyCase (word : String) (cs : List Char) : Bool :=
  cs.map Char.toLower == word.toList

/-- Reads a declaration after `<!`, which leaves no token. Gives the rest, with the stray text that
a document type declaration leaves behind. -/
def readDeclaration (cs : List Char) : List Char :=
  let rest := skipTagBlanks (cs.dropWhile isNameChar)
  if isWordInAnyCase "doctype" (cs.takeWhile isNameChar) then
    match skipTagBlanks (rest.dropWhile isNameChar) with
    | [] => []
    | c :: rest => strayText c ++ rest
  else rest

/-- A character has at most four bytes, so that at most three are left of it. -/
theorem length_strayText_le (c : Char) : (strayText c).length ≤ 3 := by
  have := c.utf8Size_le_four
  simp only [strayText, List.length_replicate]
  omega

/-- A declaration leaves no more than there was: the stray text of a document type declaration is
shorter than the word that it begins with. -/
theorem length_readDeclaration_le (cs : List Char) : (readDeclaration cs).length ≤ cs.length := by
  have h₀ : (cs.takeWhile isNameChar).length + (cs.dropWhile isNameChar).length = cs.length := by
    rw [← List.length_append, List.takeWhile_append_dropWhile]
  have h₁ := length_skipTagBlanks_le (cs.dropWhile isNameChar)
  unfold readDeclaration
  dsimp only
  split
  · rename_i hw
    have hn : (cs.takeWhile isNameChar).length = 7 := by
      have := congrArg List.length (eq_of_beq hw)
      rwa [List.length_map] at this
    have h₂ : ((skipTagBlanks (cs.dropWhile isNameChar)).dropWhile isNameChar).length ≤ _ :=
      (List.dropWhile_sublist _).length_le
    have h₃ := length_skipTagBlanks_le
      ((skipTagBlanks (cs.dropWhile isNameChar)).dropWhile isNameChar)
    split
    · simp
    · rename_i c rest e
      have := length_strayText_le c
      rw [e, List.length_cons] at h₃
      rw [List.length_append]
      omega
  · omega

/-! ### Tags and tokens -/

/-- Reads a start tag from its name on. -/
def readStart (cs : List Char) : Option Token × List Char :=
  let (name, rest) := span isNameChar cs
  match readAttributes (skipTagBlanks rest) with
  | none => (none, [])
  | some (attributes, '/' :: '>' :: rest) => (some (.start name attributes true), rest)
  | some (attributes, '>' :: rest) => (some (.start name attributes false), rest)
  | some (_, '/' :: rest) => (none, rest)
  | some (_, rest) => (none, rest)

/-- Reads a tag after `<` and blanks, the last of which is `before`: its token, if there is one,
and the rest. -/
def readTag (before : Char) : List Char → Option Token × List Char
  | [] => (none, [])
  | '/' :: cs => (some (.finish (cs.takeWhile (· != '>'))), (cs.dropWhile (· != '>')).drop 1)
  | '!' :: '-' :: '-' :: cs =>
    match readComment? ('-' :: '-' :: cs) with
    | some (body, rest) => (some (.comment (before :: '!' :: body)), rest)
    | none => (some (.comment []), [])
  | '!' :: cs => (none, readDeclaration cs)
  | cs => readStart cs

/-- A start tag leaves no more than there was, read or not. -/
theorem length_readStart_le (cs : List Char) : (readStart cs).2.length ≤ cs.length := by
  have h : (skipTagBlanks (cs.dropWhile isNameChar)).length ≤ cs.length :=
    Nat.le_trans (length_skipTagBlanks_le _) (List.dropWhile_sublist _).length_le
  simp only [readStart, span]
  split
  · simp
  all_goals
    rename_i e
    have := length_readAttributes_le e
    simp only [List.length_cons] at this ⊢
    omega

/-- A tag leaves no more than there was after `<` and blanks, of whichever kind it is. -/
theorem length_readTag_le (before : Char) (cs : List Char) :
    (readTag before cs).2.length ≤ cs.length := by
  unfold readTag
  split
  · simp
  · rename_i cs
    have : (cs.dropWhile (· != '>')).length ≤ cs.length := (List.dropWhile_sublist _).length_le
    simp only [List.length_drop, List.length_cons]
    omega
  · split
    · rename_i e
      have := length_readComment? e
      simp only [List.length_cons] at this ⊢
      omega
    · simp
  · rename_i cs _
    have := length_readDeclaration_le cs
    simp only [List.length_cons]
    omega
  · exact length_readStart_le _

/-- The last of the blanks after `<`, or `<` itself. -/
def lastBefore : Char → List Char → Char
  | before, [] => before
  | before, c :: cs => if isTagBlank c then lastBefore c cs else before

/-- The tokens of an HTML text. -/
def tokens : List Char → List Token
  | [] => []
  | c :: cs =>
    if c = '<' then
      let read := readTag (lastBefore '<' cs) (skipTagBlanks cs)
      read.1.toList ++ tokens read.2
    else
      .text (c :: cs.takeWhile (· != '<')) :: tokens (cs.dropWhile (· != '<'))
termination_by cs => cs.length
decreasing_by
  · have h₁ := length_readTag_le (lastBefore '<' cs) (skipTagBlanks cs)
    have h₂ := length_skipTagBlanks_le cs
    simp only [List.length_cons]
    omega
  · have : (cs.dropWhile (· != '<')).length ≤ cs.length := (List.dropWhile_sublist _).length_le
    simp only [List.length_cons]
    omega

end IconMarkup.Html
