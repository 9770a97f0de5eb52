import Mathlib.Data.List.DropRight
import IconMarkup.Proofs.Html.Canonical
import IconMarkup.Proofs.Text.Escaping
import IconMarkup.Tree.Render

/-!
# Tokens of written markup

Each kind of written piece is read as the token that it was written for, whatever follows it:
start tags (`tokens_startTag`), end tags (`tokens_endTag`), comments (`tokens_comment`) and, before
a tag, text (`tokens_append_of_text`). So the markup of canonical nodes is read as the tokens that
the nodes stand for (`tokens_markupOf`).
-/

namespace IconMarkup.Html

/-! ### Plain names -/

theorem isNameChar_of_isPlainChar {c : Char} (h : isPlainChar c = true) : isNameChar c = true := by
  have halpha : c.isAlpha = (c.isUpper || c.isLower) := rfl
  simp only [isPlainChar, isNameChar, Char.isAlphanum, halpha, Bool.or_eq_true] at h ⊢
  tauto

theorem isPlainChar_of_isLower {c : Char} (h : c.isLower = true) : isPlainChar c = true := by
  simp [isPlainChar, h]

/-- A plain name is a lower-case letter followed by plain characters. -/
theorem exists_of_isPlainName {name : String} (h : isPlainName name = true) :
    ∃ first rest, name.toList = first :: rest ∧ first.isLower = true ∧
      ∀ c ∈ first :: rest, isPlainChar c = true := by
  unfold isPlainName at h
  split at h
  · cases h
  · rename_i first rest hname
    rw [Bool.and_eq_true, List.all_eq_true] at h
    refine ⟨first, rest, hname, h.1, fun c hc => ?_⟩
    rcases List.mem_cons.mp hc with rfl | hc
    · exact isPlainChar_of_isLower h.1
    · exact h.2 c hc

private theorem isNameChar_of_mem {name : String} (h : isPlainName name = true) :
    ∀ c ∈ name.toList, isNameChar c = true := by
  obtain ⟨first, rest, hname, -, hplain⟩ := exists_of_isPlainName h
  rw [hname]
  exact fun c hc => isNameChar_of_isPlainChar (hplain c hc)

/-- A name character ends neither a tag nor a name, and separates nothing. -/
theorem ne_of_isNameChar {c d : Char} (hc : isNameChar c = true) (hd : isNameChar d = false) :
    c ≠ d := by
  rintro rfl
  rw [hc] at hd
  cases hd

private theorem isTagBlank_of_isNameChar {c : Char} (h : isNameChar c = true) :
    isTagBlank c = false := by
  simp only [isTagBlank, Bool.or_eq_false_iff, beq_eq_false_iff_ne]
  exact ⟨ne_of_isNameChar h (by decide), ne_of_isNameChar h (by decide)⟩

/-! ### Cutting -/

/-- What comes first is cut off when what follows begins with another kind of character. -/
theorem span_append {isKind : Char → Bool} {cs rest : List Char} (hcs : ∀ c ∈ cs, isKind c = true)
    (hrest : ∀ c ∈ rest.head?, isKind c = false) : span isKind (cs ++ rest) = (cs, rest) := by
  rw [span, List.takeWhile_append_of_pos hcs, List.dropWhile_append_of_pos hcs]
  cases rest with
  | nil => simp
  | cons c rest => simp [hrest c rfl]

theorem skipTagBlanks_of_head {cs : List Char} (h : ∀ c ∈ cs.head?, isTagBlank c = false) :
    skipTagBlanks cs = cs := by
  cases cs with
  | nil => rfl
  | cons c cs => simp [skipTagBlanks, h c rfl]

/-! ### Attributes -/

/-- What a name must be to be read as one. -/
structure IsName (name : List Char) : Prop where
  chars : ∀ c ∈ name, isNameChar c = true
  noSlash : name.head? ≠ some '/'

/-- What an attribute must be to be read as it is written. -/
structure IsReadableAttribute (entry : SourceAttribute) : Prop where
  name : IsName entry.1
  noQuote : ∀ value ∈ entry.2, '"' ∉ value
  nonempty : entry ≠ ([], none)

/-- A value between quotes is read up to the closing quote. -/
private theorem readValue_quoted {value : List Char} (hvalue : '"' ∉ value) (rest : List Char) :
    readValue ('"' :: value ++ '"' :: rest) = (value, '"' :: rest) := by
  have hspan : span (· != '"') (value ++ '"' :: rest) = (value, '"' :: rest) := by
    refine span_append (fun c hc => ?_) (by simp)
    rw [bne_iff_ne]
    rintro rfl
    exact hvalue hc
  have hskip : skipTagBlanks ('"' :: value ++ '"' :: rest) = '"' :: (value ++ '"' :: rest) :=
    skipTagBlanks_of_head (by simp [isTagBlank])
  simp only [readValue, hskip, hspan]

/-- An attribute with a quoted value is read up to its closing quote. -/
private theorem readAttribute_append {name value : List Char}
    (hname : ∀ c ∈ name, isNameChar c = true) (hvalue : '"' ∉ value) (rest : List Char) :
    readAttribute (name ++ '=' :: ('"' :: value ++ '"' :: rest)) =
      ((name, some value), '"' :: rest) := by
  have hspan : span isNameChar (name ++ '=' :: ('"' :: value ++ '"' :: rest)) =
      (name, '=' :: ('"' :: value ++ '"' :: rest)) :=
    span_append hname (by simp [isNameChar])
  have hskip : skipTagBlanks ('=' :: ('"' :: value ++ '"' :: rest)) =
      '=' :: ('"' :: value ++ '"' :: rest) :=
    skipTagBlanks_of_head (by simp [isTagBlank])
  simp only [readAttribute, hspan, hskip, readValue_quoted hvalue]

/-- A name right before the end of a tag is an attribute without value. -/
private theorem readAttribute_of_close {name : List Char} (hname : ∀ c ∈ name, isNameChar c = true)
    (rest : List Char) : readAttribute (name ++ '>' :: rest) = ((name, none), '>' :: rest) := by
  have hspan : span isNameChar (name ++ '>' :: rest) = (name, '>' :: rest) :=
    span_append hname (by simp [isNameChar])
  have hskip : skipTagBlanks ('>' :: rest) = '>' :: rest :=
    skipTagBlanks_of_head (by simp [isTagBlank])
  simp only [readAttribute, hspan]
  split
  · rename_i h
    cases hskip.symm.trans h
  · rw [hskip]

/-- Reads one attribute. If it has a value, its closing quote is skipped; otherwise the tag ends. -/
private theorem readAttributes_of_readAttribute {cs tail rest : List Char} {c d : Char}
    {entry : SourceAttribute} (hskip : skipTagBlanks cs = c :: tail) (hslash : c ≠ '/')
    (hclose : c ≠ '>') (hread : readAttribute (c :: tail) = (entry, d :: rest)) :
    (d = '"' → readAttributes cs =
        (readAttributes rest).map fun (entries, rest) => (entry :: entries, rest)) ∧
      (d = '>' → readAttributes cs = some ([entry], '>' :: rest)) := by
  rw [readAttributes]
  split
  · rename_i h
    cases hskip.symm.trans h
  · rename_i h
    cases hskip.symm.trans h
    rw [if_neg (not_or.mpr ⟨hslash, hclose⟩)]
    split
    · rename_i h
      cases hread.symm.trans h
    · rename_i h
      cases hread.symm.trans h
      refine ⟨?_, ?_⟩ <;> rintro rfl
      · -- the quote that is left counts for nothing
        rw [if_neg (by decide), show strayAttributes '"' = [] from rfl]
        rfl
      · rw [if_pos (Or.inr rfl)]

/-- What a name is followed by in a written attribute is read as part of it. -/
private theorem IsName.exists_cons {name : List Char} (h : IsName name) (more : List Char)
    (hmore : name = [] → ∃ after, more = '=' :: after) :
    ∃ c tail, name ++ more = c :: tail ∧ isTagBlank c = false ∧ c ≠ '/' ∧ c ≠ '>' := by
  cases name with
  | nil =>
    obtain ⟨after, rfl⟩ := hmore rfl
    exact ⟨'=', after, rfl, rfl, by decide, by decide⟩
  | cons c tail =>
    have hc := h.chars c (List.mem_cons_self ..)
    refine ⟨c, tail ++ more, rfl, isTagBlank_of_isNameChar hc, ?_, ne_of_isNameChar hc (by decide)⟩
    rintro rfl
    exact h.noSlash rfl

/-- A written attribute with a value is read as it is, before whatever follows it. -/
private theorem readAttributes_sourceAttribute_append {name value : List Char}
    (h : IsReadableAttribute (name, some value)) (rest : List Char) :
    readAttributes (sourceAttribute (name, some value) ++ rest) =
      (readAttributes rest).map fun (entries, rest) => ((name, some value) :: entries, rest) := by
  have hread := readAttribute_append h.name.chars (h.noQuote value rfl) rest
  obtain ⟨c, tail, hshape, hblank, hslash, hclose⟩ := h.name.exists_cons
    ('=' :: ('"' :: value ++ '"' :: rest)) fun _ => ⟨_, rfl⟩
  have hskip : skipTagBlanks (sourceAttribute (name, some value) ++ rest) = c :: tail := by
    have happend : sourceAttribute (name, some value) ++ rest =
        ' ' :: (name ++ '=' :: ('"' :: value ++ '"' :: rest)) := by simp [sourceAttribute]
    rw [happend, hshape]
    simp [skipTagBlanks, hblank, show isTagBlank ' ' = true from rfl]
  rw [hshape] at hread
  exact (readAttributes_of_readAttribute hskip hslash hclose hread).1 rfl

/-- A written attribute without a value is read as it is if the tag ends after it. -/
private theorem readAttributes_sourceAttribute_of_close {name : List Char}
    (h : IsReadableAttribute (name, none)) (rest : List Char) :
    readAttributes (sourceAttribute (name, none) ++ '>' :: rest) =
      some ([(name, none)], '>' :: rest) := by
  have hread := readAttribute_of_close h.name.chars rest
  obtain ⟨c, tail, hshape, hblank, hslash, hclose⟩ := h.name.exists_cons
    ('>' :: rest) fun hnil => absurd (Prod.ext hnil rfl :
      (name, none) = (([], none) : SourceAttribute)) h.nonempty
  have hskip : skipTagBlanks (sourceAttribute (name, none) ++ '>' :: rest) = c :: tail := by
    rw [sourceAttribute, List.cons_append, hshape]
    simp [skipTagBlanks, hblank, show isTagBlank ' ' = true from rfl]
  rw [hshape] at hread
  exact (readAttributes_of_readAttribute hskip hslash hclose hread).2 rfl

private theorem readAttributes_of_close (rest : List Char) :
    readAttributes ('>' :: rest) = some ([], '>' :: rest) := by
  have hskip : skipTagBlanks ('>' :: rest) = '>' :: rest :=
    skipTagBlanks_of_head (by simp [isTagBlank])
  rw [readAttributes]
  split
  · rename_i h
    cases hskip.symm.trans h
  · rename_i h
    cases hskip.symm.trans h
    rw [if_pos (Or.inr rfl)]

/-- The attributes of a start tag are read as they are written, if only the last one may lack a
value. -/
theorem readAttributes_flatMap_sourceAttribute {attributes : List SourceAttribute}
    (h : ∀ entry ∈ attributes, IsReadableAttribute entry)
    (hvalues : ∀ entry ∈ attributes.dropLast, entry.2.isSome = true) (rest : List Char) :
    readAttributes (attributes.flatMap sourceAttribute ++ '>' :: rest) =
      some (attributes, '>' :: rest) := by
  induction attributes with
  | nil => exact readAttributes_of_close rest
  | cons entry others ih =>
    obtain ⟨hentry, hothers⟩ := List.forall_mem_cons.mp h
    obtain ⟨name, value⟩ := entry
    cases value with
    | some value =>
      have hvalues' : ∀ other ∈ others.dropLast, other.2.isSome = true := fun other hother =>
        hvalues other (by cases others <;> simp_all)
      rw [List.flatMap_cons, List.append_assoc, readAttributes_sourceAttribute_append hentry,
        ih hothers hvalues']
      rfl
    | none =>
      cases others with
      | nil =>
        rw [List.flatMap_singleton]
        exact readAttributes_sourceAttribute_of_close hentry rest
      | cons other others => simp at hvalues

/-! ### Tags -/

/-- A start tag as written. -/
def startTag (name : List Char) (attributes : List SourceAttribute) : List Char :=
  '<' :: name ++ attributes.flatMap sourceAttribute ++ ['>']

/-- An end tag as written. -/
def endTag (name : List Char) : List Char :=
  '<' :: '/' :: name ++ ['>']

/-- What a start tag must be to be read as it is written. -/
structure IsReadableStart (tag : List Char) (attributes : List SourceAttribute) : Prop where
  name : IsName tag
  readable : ∀ entry ∈ attributes, IsReadableAttribute entry
  /-- After an attribute without a value the tag ends. -/
  values : ∀ entry ∈ attributes.dropLast, entry.2.isSome = true
  /-- Otherwise the name of the first attribute would be that of the element. -/
  nameless : tag = [] → ∀ entry ∈ attributes.head?, entry.1 = []

/-- Blanks before the first attribute make no difference. -/
theorem readAttributes_skipTagBlanks (cs : List Char) :
    readAttributes (skipTagBlanks cs) = readAttributes cs := by
  have hskip : skipTagBlanks (skipTagBlanks cs) = skipTagBlanks cs := List.dropWhile_idempotent ..
  rw [readAttributes, readAttributes.eq_def cs]
  generalize skipTagBlanks (skipTagBlanks cs) = trimmed at hskip
  subst hskip
  rfl

/-- What is neither an end tag nor a declaration is read as a start tag. -/
private theorem readTag_eq_readStart {c : Char} (hslash : c ≠ '/') (hbang : c ≠ '!') (before : Char)
    (cs : List Char) : readTag before (c :: cs) = readStart (c :: cs) := by
  -- none of the characters that begin another kind of tag is the first one
  unfold readTag
  split <;> simp_all

/-- A tag is read after `<` and the blanks that follow. -/
private theorem tokens_lt (cs : List Char) :
    tokens ('<' :: cs) =
      (readTag (lastBefore '<' cs) (skipTagBlanks cs)).1.toList ++
        tokens (readTag (lastBefore '<' cs) (skipTagBlanks cs)).2 := by
  rw [tokens, if_pos rfl]

/-- A tag is read right after `<` when no blank comes between. -/
theorem tokens_lt_cons {c : Char} (hc : isTagBlank c = false) (cs : List Char) :
    tokens ('<' :: c :: cs) =
      (readTag '<' (c :: cs)).1.toList ++ tokens (readTag '<' (c :: cs)).2 := by
  have hskip : skipTagBlanks (c :: cs) = c :: cs := skipTagBlanks_of_head (by simp [hc])
  have hlast : lastBefore '<' (c :: cs) = '<' := by simp [lastBefore, hc]
  rw [tokens_lt, hskip, hlast]

/-- A start tag is read from its name on, if nothing but its attributes follows the name. -/
private theorem readStart_of_span {name : List Char} {attributes : List SourceAttribute}
    (h : IsReadableStart name attributes) {cs more rest : List Char}
    (hspan : span isNameChar cs = (name, more))
    (hmore : skipTagBlanks more =
      skipTagBlanks (attributes.flatMap sourceAttribute ++ '>' :: rest)) :
    readStart cs = (some (.start name attributes false), rest) := by
  simp only [readStart, hspan, hmore, readAttributes_skipTagBlanks,
    readAttributes_flatMap_sourceAttribute h.readable h.values]

/-- After a start tag without a name come the end of the tag or an attribute without a name. -/
private theorem head_skipTagBlanks_of_nameless {attributes : List SourceAttribute}
    (h : ∀ entry ∈ attributes, IsReadableAttribute entry)
    (hnameless : ∀ entry ∈ attributes.head?, entry.1 = []) (rest : List Char) :
    ∃ c cs, skipTagBlanks (attributes.flatMap sourceAttribute ++ '>' :: rest) = c :: cs ∧
      (c = '=' ∨ c = '>') := by
  rcases attributes with _ | ⟨⟨name, value⟩, others⟩
  · exact ⟨'>', rest, skipTagBlanks_of_head (by simp [isTagBlank]), .inr rfl⟩
  · obtain rfl : name = [] := hnameless _ rfl
    cases value with
    | none => exact absurd rfl (h _ (List.mem_cons_self ..)).nonempty
    | some value =>
      exact ⟨'=', _, by simp [sourceAttribute, skipTagBlanks, isTagBlank]; rfl, .inl rfl⟩

/-- A written start tag is read as it is, before whatever follows it. -/
theorem tokens_startTag {name : List Char} {attributes : List SourceAttribute}
    (h : IsReadableStart name attributes) (rest : List Char) :
    tokens (startTag name attributes ++ rest) = .start name attributes false :: tokens rest := by
  have hshape : startTag name attributes ++ rest =
      '<' :: (name ++ (attributes.flatMap sourceAttribute ++ '>' :: rest)) := by simp [startTag]
  -- in the text after `<` and blanks the name comes first, or what can follow it
  obtain ⟨c, cs, hskip, hslash, hbang, hspan⟩ : ∃ c cs,
      skipTagBlanks (name ++ (attributes.flatMap sourceAttribute ++ '>' :: rest)) = c :: cs ∧
        c ≠ '/' ∧ c ≠ '!' ∧ ∃ more, span isNameChar (c :: cs) = (name, more) ∧
          skipTagBlanks more =
            skipTagBlanks (attributes.flatMap sourceAttribute ++ '>' :: rest) := by
    cases name with
    | nil =>
      obtain ⟨c, cs, hskip, hc⟩ := head_skipTagBlanks_of_nameless h.readable (h.nameless rfl) rest
      have hends : isTagBlank c = false ∧ isNameChar c = false ∧ c ≠ '/' ∧ c ≠ '!' := by
        rcases hc with rfl | rfl <;> decide
      obtain ⟨hblank, hname, hslash, hbang⟩ := hends
      have hspan : span isNameChar ([] ++ c :: cs) = ([], c :: cs) :=
        span_append (by simp) (by simp [hname])
      refine ⟨c, cs, hskip, hslash, hbang, c :: cs, hspan, ?_⟩
      rw [hskip]
      exact skipTagBlanks_of_head (by simp [hblank])
    | cons c name =>
      have hc := h.name.chars c (List.mem_cons_self ..)
      refine ⟨c, name ++ (attributes.flatMap sourceAttribute ++ '>' :: rest), ?_, ?_,
        ne_of_isNameChar hc (by decide), _, ?_, rfl⟩
      · exact skipTagBlanks_of_head (by simp [isTagBlank_of_isNameChar hc])
      · rintro rfl
        exact h.name.noSlash rfl
      · refine span_append h.name.chars ?_
        rcases attributes with _ | ⟨⟨_, _ | _⟩, _⟩ <;> simp [sourceAttribute, isNameChar]
  obtain ⟨more, hspan, hmore⟩ := hspan
  rw [hshape, tokens_lt, hskip, readTag_eq_readStart hslash hbang,
    readStart_of_span h hspan hmore]
  rfl

/-- A written end tag is read as it is, before whatever follows it. -/
theorem tokens_endTag {name : List Char} (h : '>' ∉ name) (rest : List Char) :
    tokens (endTag name ++ rest) = .finish name :: tokens rest := by
  have hspan : span (· != '>') (name ++ '>' :: rest) = (name, '>' :: rest) := by
    refine span_append (fun c hc => ?_) (by simp)
    rw [bne_iff_ne]
    rintro rfl
    exact h hc
  rw [span, Prod.mk.injEq] at hspan
  have hshape : endTag name ++ rest = '<' :: '/' :: (name ++ '>' :: rest) := by simp [endTag]
  rw [hshape, tokens_lt_cons rfl, readTag, hspan.1, hspan.2]
  rfl

/-! ### Comments -/

/-- The written form of a comment. -/
def sourceComment (content : List Char) : List Char :=
  '<' :: '!' :: '-' :: '-' :: (content ++ ['-', '-', '>'])

private theorem comment_tail {c : Char} {cs : List Char} (hno : ¬ ['-', '-'] <:+: c :: cs)
    (hlast : (c :: cs).getLast? ≠ some '-') :
    ¬ ['-', '-'] <:+: cs ∧ cs.getLast? ≠ some '-' := by
  refine ⟨fun h => hno (h.trans (List.suffix_cons c cs).isInfix), fun h => hlast ?_⟩
  rw [List.getLast?_cons, h, Option.getD_some]

/-- A text without two hyphens in a row and without a hyphen at its end does not matter for where
a comment ends. -/
theorem readComment?_append {content : List Char} (hno : ¬ ['-', '-'] <:+: content)
    (hlast : content.getLast? ≠ some '-') (rest : List Char) :
    readComment? (content ++ rest) =
      (readComment? rest).map fun (body, rest) => (content ++ body, rest) := by
  induction content with
  | nil => simp
  | cons c cs ih =>
    obtain ⟨hno', hlast'⟩ := comment_tail hno hlast
    -- no hyphen is followed by another one, in the text or at its end
    have hnext : c = '-' → ∀ more, cs ++ rest ≠ '-' :: more := by
      rintro rfl more h
      cases cs with
      | nil => exact hlast rfl
      | cons d ds =>
        rw [List.cons_append, List.cons.injEq] at h
        refine hno ⟨[], ds, ?_⟩
        rw [h.1]
        rfl
    rw [List.cons_append, readComment?.eq_3 _ _ (fun _ hc => hnext hc _) (fun _ _ hc => hnext hc _),
      ih hno' hlast', Option.map_map]
    rfl

/-- A comment that is read ends with two hyphens and `>`. -/
theorem suffix_of_readComment? {cs body rest : List Char}
    (h : readComment? cs = some (body, rest)) : ['-', '-', '>'] <:+ body := by
  fun_induction readComment? cs generalizing body with
  | case1 rest' =>
    cases h
    exact List.suffix_rfl
  | case2 c cs _ ih =>
    obtain ⟨⟨body', rest'⟩, hread, he⟩ := Option.map_eq_some_iff.mp h
    cases he
    exact (ih hread).trans (List.suffix_append ['-', '-', c] body')
  | case3 c cs _ _ ih =>
    obtain ⟨⟨body', rest'⟩, hread, he⟩ := Option.map_eq_some_iff.mp h
    cases he
    exact (ih hread).trans (List.suffix_cons c body')
  | case4 => cases h

/-- Three characters end a comment. -/
theorem length_of_readComment? {cs body rest : List Char}
    (h : readComment? cs = some (body, rest)) : 3 ≤ body.length :=
  (suffix_of_readComment? h).length_le

/-- A comment that is read is the text up to where it ends, and what follows does not matter. -/
theorem readComment?_eq_some {cs body rest : List Char}
    (h : readComment? cs = some (body, rest)) :
    cs = body ++ rest ∧ ∀ more, readComment? (body ++ more) = some (body, more) := by
  fun_induction readComment? cs generalizing body with
  | case1 rest' =>
    cases h
    exact ⟨rfl, fun more => rfl⟩
  | case2 c cs hbracket ih =>
    obtain ⟨⟨body', rest'⟩, hread, he⟩ := Option.map_eq_some_iff.mp h
    cases he
    obtain ⟨rfl, hmore⟩ := ih hread
    refine ⟨rfl, fun more => ?_⟩
    rw [List.cons_append, List.cons_append, List.cons_append, readComment?.eq_2 _ _ hbracket,
      hmore more]
    rfl
  | case3 c cs hend hhyphens ih =>
    obtain ⟨⟨body', rest'⟩, hread, he⟩ := Option.map_eq_some_iff.mp h
    cases he
    obtain ⟨rfl, hmore⟩ := ih hread
    obtain ⟨first, second, others, rfl⟩ : ∃ first second others,
        body' = first :: second :: others := by
      match body', length_of_readComment? hread with
      | first :: second :: others, _ => exact ⟨first, second, others, rfl⟩
    -- the two characters that come next belong to the comment
    refine ⟨rfl, fun more => ?_⟩
    rw [List.cons_append, readComment?.eq_3, hmore more]
    · rfl
    · rintro after rfl hafter
      simp only [List.cons_append, List.cons.injEq] at hafter
      exact hend (others ++ rest) rfl (by simp [hafter])
    · rintro next after rfl hafter
      simp only [List.cons_append, List.cons.injEq] at hafter
      exact hhyphens next (others ++ rest) rfl (by simp [hafter])
  | case4 => cases h

/-- A written comment is read as it is, before whatever follows it. -/
theorem tokens_comment {body : List Char} (hstart : ['-', '-'] <+: body)
    (h : readComment? body = some (body, [])) (rest : List Char) :
    tokens ('<' :: '!' :: body ++ rest) = .comment ('<' :: '!' :: body) :: tokens rest := by
  obtain ⟨more, rfl⟩ := hstart
  have hread := (readComment?_eq_some h).2 rest
  rw [List.cons_append, List.cons_append, tokens_lt_cons rfl, List.cons_append, List.cons_append,
    List.cons_append, List.cons_append, List.nil_append, readTag]
  simp only [List.cons_append, List.nil_append] at hread
  rw [hread]
  rfl

/-- A comment without anything that ends it early. -/
private theorem readComment?_of_isPlainComment {content : List Char} (h : IsPlainComment content) :
    readComment? (['-', '-'] ++ (content ++ ['-', '-', '>'])) =
      some (['-', '-'] ++ (content ++ ['-', '-', '>']), []) := by
  obtain ⟨c, cs, rfl⟩ := List.exists_cons_of_ne_nil h.nonempty
  obtain ⟨hno, hlast⟩ := comment_tail h.noHyphens h.noHyphenLast
  have hbracket : c ≠ '>' := fun hc => h.noBracketFirst (by rw [hc, List.head?_cons])
  simp only [List.cons_append, List.nil_append]
  rw [readComment?.eq_2 _ _ hbracket, readComment?_append hno hlast]
  rfl

/-! ### Tokens -/

/-- Text goes up to the next tag. -/
theorem tokens_append_of_text {content rest : List Char} (hne : content ≠ [])
    (hlt : '<' ∉ content) (hrest : ∀ c ∈ rest.head?, c = '<') :
    tokens (content ++ rest) = .text content :: tokens rest := by
  obtain ⟨c, cs, rfl⟩ := List.exists_cons_of_ne_nil hne
  rw [List.mem_cons, not_or] at hlt
  -- the first character is taken without a look at it
  have hspan : span (· != '<') (cs ++ rest) = (cs, rest) := by
    refine span_append (fun d hd => ?_) fun d hd => ?_
    · rw [bne_iff_ne]
      rintro rfl
      exact hlt.2 hd
    · rw [hrest d hd]
      rfl
  rw [span, Prod.mk.injEq] at hspan
  rw [List.cons_append, tokens, if_neg (Ne.symm hlt.1), hspan.1, hspan.2]

/-! ### Written nodes -/

/-- An attribute as it is written. -/
def sourceEntry (entry : String × String) : SourceAttribute :=
  (entry.1.toList, some (Text.escapeAttribute entry.2.toList))

/-- A start tag is written with its attributes between double quotes. -/
theorem markupStart_eq (tag : String) (attributes : Attributes) :
    markupStart tag attributes = startTag tag.toList (attributes.toList.map sourceEntry) := by
  rw [markupStart, startTag, List.flatMap_map]
  rfl

/-- Written attributes can be read if their names can. -/
theorem isReadableAttribute_sourceEntry {entry : String × String} (h : IsName entry.1.toList) :
    IsReadableAttribute (sourceEntry entry) where
  name := h
  noQuote value hvalue := by
    cases hvalue
    exact Text.quote_not_mem_escapeAttribute _
  nonempty := by simp [sourceEntry]

/-- A plain name is read as a name. -/
theorem isName_of_isPlainName {name : String} (h : isPlainName name = true) :
    IsName name.toList where
  chars := isNameChar_of_mem h
  noSlash := by
    obtain ⟨first, rest, hname, hlower, -⟩ := exists_of_isPlainName h
    rw [hname, List.head?_cons, ne_eq, Option.some.injEq]
    rintro rfl
    simp at hlower

private theorem IsPlainStart.isReadableStart {tag : String} {attributes : Attributes}
    (h : IsPlainStart tag attributes) :
    IsReadableStart tag.toList (attributes.toList.map sourceEntry) where
  name := isName_of_isPlainName h.plainTag
  readable := List.forall_mem_map.mpr fun entry hentry =>
    isReadableAttribute_sourceEntry (isName_of_isPlainName (h.plainNames entry hentry))
  values := by
    rw [← List.map_dropLast]
    exact List.forall_mem_map.mpr fun _ _ => rfl
  nameless hnil := by
    obtain ⟨first, rest, hname, -⟩ := exists_of_isPlainName h.plainTag
    rw [hname] at hnil
    cases hnil

end IconMarkup.Html

namespace IconMarkup

open Html

mutual

/-- The tokens that a node stands for. -/
def Node.tokens : Node → List Token
  | .element tag attributes children =>
    .start tag.toList (attributes.toList.map sourceEntry) false ::
      if isVoidTag tag then [] else tokensOf children ++ [.finish tag.toList]
  | .text content => [.text (Text.escapeText content.toList)]
  | .raw content => [.text content.toList]
  | .comment content => [.comment (sourceComment content.toList)]

/-- The tokens that a list of nodes stands for. -/
def tokensOf : List Node → List Token
  | [] => []
  | node :: rest => node.tokens ++ tokensOf rest

end

theorem ne_fragmentTag {tag : String} {attributes : Attributes}
    (h : IsPlainStart tag attributes) : tag ≠ fragmentTag := by
  rintro rfl
  have := h.plainTag
  simp [isPlainName, fragmentTag] at this

/-- Canonical markup other than text begins with a tag. -/
theorem head?_markup {node : Node} (h : node.Canonical) (htext : node.isText = false)
    (more : List Char) : (node.markup ++ more).head? = some '<' := by
  cases node with
  | element tag attributes children =>
    rw [Node.Canonical] at h
    rw [Node.markup, markupElement, if_neg (ne_fragmentTag h.1), markupStart]
    split <;> rfl
  | text content => cases htext
  | raw content => cases htext
  | comment content => rfl

private theorem head?_markupOf {nodes : List Node} (h : CanonicalNodes nodes)
    (hhead : ∀ node ∈ nodes.head?, node.isText = false) {more : List Char}
    (hmore : ∀ c ∈ more.head?, c = '<') : ∀ c ∈ (markupOf nodes ++ more).head?, c = '<' := by
  cases nodes with
  | nil => exact hmore
  | cons node rest =>
    rw [CanonicalNodes] at h
    rw [markupOf, List.append_assoc, head?_markup h.1 (hhead node rfl)]
    simp

/-- A written element without content is its start tag. -/
private theorem tokens_markupStart {tag : String} {attributes : Attributes}
    (h : IsPlainStart tag attributes) (rest : List Char) :
    Html.tokens (markupStart tag attributes ++ rest) =
      .start tag.toList (attributes.toList.map sourceEntry) false :: Html.tokens rest := by
  rw [markupStart_eq, tokens_startTag h.isReadableStart]

/-- An end tag is read as one token. -/
private theorem tokens_markupEnd {tag : String} (h : isPlainName tag = true) (rest : List Char) :
    Html.tokens (markupEnd tag ++ rest) = .finish tag.toList :: Html.tokens rest :=
  tokens_endTag (fun hmem => ne_of_isNameChar (isNameChar_of_mem h _ hmem) (by decide) rfl) rest

mutual

private theorem Node.tokens_markup :
    ∀ (node : Node) (rest : List Char), node.Canonical →
      (node.isText = true → ∀ c ∈ rest.head?, c = '<') →
        Html.tokens (node.markup ++ rest) = node.tokens ++ Html.tokens rest
  | .element tag attributes children, rest, h, _ => by
    rw [Node.Canonical] at h
    obtain ⟨hstart, -, hapart, hchildren⟩ := h
    rw [Node.markup, markupElement, if_neg (ne_fragmentTag hstart), Node.tokens]
    split
    · rw [tokens_markupStart hstart]
      rfl
    · -- the end tag is the markup that follows the children
      have hinside := tokens_markupOf children (markupEnd tag ++ rest) hchildren hapart
        (by simp [markupEnd])
      rw [List.append_assoc, List.append_assoc, tokens_markupStart hstart, hinside,
        tokens_markupEnd hstart.plainTag]
      simp
  | .text content, rest, h, hrest => by
    rw [Node.Canonical] at h
    have hne : content.toList ≠ [] := by
      rw [ne_eq, String.toList_eq_nil_iff]
      exact h
    rw [Node.markup, Node.tokens, tokens_append_of_text (Text.escapeText_ne_nil hne)
      (Text.lt_not_mem_escapeText _) (hrest rfl)]
    rfl
  | .raw content, rest, h, _ => by
    rw [Node.Canonical] at h
    exact h.elim
  | .comment content, rest, h, _ => by
    rw [Node.Canonical] at h
    have hshape : (Node.comment content).markup = '<' :: '!' :: (['-', '-'] ++
        (content.toList ++ ['-', '-', '>'])) := by
      simp [Node.markup]
    rw [hshape, tokens_comment (List.prefix_append ..) (readComment?_of_isPlainComment h),
      Node.tokens]
    rfl

/-- The markup of canonical nodes is read as the tokens that the nodes stand for, whatever markup
follows. -/
theorem tokens_markupOf :
    ∀ (nodes : List Node) (rest : List Char), CanonicalNodes nodes → TextsApart nodes →
      (∀ c ∈ rest.head?, c = '<') →
        Html.tokens (markupOf nodes ++ rest) = tokensOf nodes ++ Html.tokens rest
  | [], rest, _, _, _ => by simp [markupOf, tokensOf]
  | node :: others, rest, h, hapart, hrest => by
    rw [CanonicalNodes] at h
    obtain ⟨hnode, hothers⟩ := h
    obtain ⟨hnext, hapart⟩ := List.isChain_cons.mp hapart
    -- after text comes a tag, since the next node is not text
    have hmore : node.isText = true → ∀ c ∈ (markupOf others ++ rest).head?, c = '<' := by
      intro htext
      refine head?_markupOf hothers (fun next hmem => ?_) hrest
      rw [Bool.eq_false_iff]
      exact fun hboth => hnext next hmem ⟨htext, hboth⟩
    rw [markupOf, List.append_assoc, Node.tokens_markup node _ hnode hmore,
      tokens_markupOf others rest hothers hapart hrest, tokensOf, List.append_assoc]

end

end IconMarkup
