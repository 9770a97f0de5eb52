import IconMarkup.Proofs.Text.Escaping
import IconMarkup.Proofs.Text.Numerals
import IconMarkup.Text.Bytes

/-!
# What decoding replaces

`IsDecoding` says what the decoded form of a text is, from left to right: an ampersand with a name
of one to ten bytes that denotes a character, up to the next semicolon, becomes this character, and
everything else is kept. `unescape` gives this form and no other (`isDecoding_iff`).
-/

namespace IconMarkup.Text

/-- The words that denote characters. -/
def namedChars : List (String × Char) :=
  [("lt", '<'), ("gt", '>'), ("amp", '&'), ("quot", '"'), ("apos", '\''), ("nbsp", '\u00a0')]

/-- Whether a name is a number sign and a number: a decimal one, or a hexadecimal one after the
letter x in either case, each with a plus sign if need be. -/
inductive IsNumbered : List Char → Nat → Prop
  | decimal {sign digits : List Char} {code : Nat} (hsign : sign = [] ∨ sign = ['+'])
    (hdigits : Spells 10 digits code) : IsNumbered ('#' :: (sign ++ digits)) code
  | hexadecimal {letter : Char} {sign digits : List Char} {code : Nat}
    (hletter : letter = 'x' ∨ letter = 'X') (hsign : sign = [] ∨ sign = ['+'])
    (hdigits : Spells 16 digits code) : IsNumbered ('#' :: letter :: (sign ++ digits)) code

/-- Whether a name denotes a character: by a word, or by the number of the character. -/
inductive Denotes : List Char → Char → Prop
  | word {name : String} {c : Char} (h : (name, c) ∈ namedChars) : Denotes name.toList c
  | number {name : List Char} {c : Char} (h : IsNumbered name c.toNat) : Denotes name c

/-- Whether a text begins with a name of one to ten bytes that denotes a character, up to the next
semicolon, and what follows that. -/
def Refers (cs : List Char) (c : Char) (rest : List Char) : Prop :=
  ∃ name, cs = name ++ ';' :: rest ∧ ';' ∉ name ∧ 1 ≤ byteLength name ∧ byteLength name ≤ 10 ∧
    Denotes name c

/-- Whether the second text is what the first one is decoded to. -/
inductive IsDecoding : List Char → List Char → Prop
  /-- Nothing is left. -/
  | nil : IsDecoding [] []
  /-- Other characters are kept. -/
  | other {c : Char} {cs out : List Char} (h : c ≠ '&') (hrest : IsDecoding cs out) :
    IsDecoding (c :: cs) (c :: out)
  /-- An ampersand and a name with its semicolon become the character. -/
  | replaced {c : Char} {cs rest out : List Char} (h : Refers cs c rest)
    (hrest : IsDecoding rest out) : IsDecoding ('&' :: cs) (c :: out)
  /-- An ampersand without such a name is kept, and decoding goes on right behind it. -/
  | kept {cs out : List Char} (h : ∀ c rest, ¬ Refers cs c rest) (hrest : IsDecoding cs out) :
    IsDecoding ('&' :: cs) ('&' :: out)

variable {cs first name digits rest : List Char} {c : Char}

/-! ### Names -/

/-- The first character of a number is a digit. -/
private theorem Spells.exists_digitValue? {base n : Nat} (hbase : base ≤ 16)
    (h : Spells base (c :: cs) n) : ∃ value, digitValue? base c = some value := by
  rw [← numeral?_eq_some_iff hbase, numeral?_of_ne_nil (by simp), extendNumeral?] at h
  obtain ⟨value, hvalue, -⟩ := Option.bind_eq_some_iff.mp h
  exact ⟨value, hvalue⟩

private theorem signedNumeral?_eq_some_iff {base n : Nat} (hbase : base ≤ 16) :
    signedNumeral? base cs = some n ↔
      ∃ sign digits, (sign = [] ∨ sign = ['+']) ∧ cs = sign ++ digits ∧ Spells base digits n := by
  constructor
  · intro h
    rw [signedNumeral?.eq_def] at h
    split at h
    · rename_i digits
      exact ⟨['+'], digits, .inr rfl, rfl, (numeral?_eq_some_iff hbase).mp h⟩
    · exact ⟨[], cs, .inl rfl, rfl, (numeral?_eq_some_iff hbase).mp h⟩
  · rintro ⟨sign, digits, rfl | rfl, rfl, h⟩
    · rw [signedNumeral?.eq_def]
      split
      · -- a plus sign is no digit
        obtain ⟨value, hvalue⟩ := h.exists_digitValue? hbase
        simp [digitValue?] at hvalue
      · exact (numeral?_eq_some_iff hbase).mpr h
    · exact (numeral?_eq_some_iff hbase).mpr h

private theorem scalar?_eq_some_iff {code : Nat} : scalar? code = some c ↔ c.toNat = code := by
  rw [scalar?, Option.dite_none_right_eq_some]
  constructor
  · rintro ⟨_, h⟩
    cases h
    rfl
  · rintro rfl
    exact ⟨c.valid, rfl⟩

/-- What is read as a number in some base is the number of a character. -/
private theorem scalar?_signedNumeral?_eq_some_iff {base : Nat} (hbase : base ≤ 16) :
    signedNumeral? base cs >>= scalar? = some c ↔
      ∃ sign digits, (sign = [] ∨ sign = ['+']) ∧ cs = sign ++ digits ∧
        Spells base digits c.toNat := by
  rw [← signedNumeral?_eq_some_iff hbase, Option.bind_eq_bind, Option.bind_eq_some_iff]
  simp only [scalar?_eq_some_iff]
  exact ⟨fun ⟨_, hread, hcode⟩ => hcode ▸ hread, fun hread => ⟨_, hread, rfl⟩⟩

/-- A number is hexadecimal if the letter x stands first. -/
private theorem referencedChar?_numberSign (cs : List Char) :
    referencedChar? ('#' :: cs) =
      if cs.head? = some 'x' ∨ cs.head? = some 'X' then signedNumeral? 16 cs.tail >>= scalar?
      else signedNumeral? 10 cs >>= scalar? := by
  have hword : ∀ word : String, word.toList.head? ≠ some '#' →
      String.ofList ('#' :: cs) ≠ word := by
    rintro word hhead rfl
    exact hhead (by simp)
  rw [referencedChar?.eq_def]
  split
  case h_7 =>
    split
    · rename_i heq
      cases heq
      rfl
    · rename_i heq
      cases heq
      rfl
    · rename_i hlower hupper heq
      cases heq
      rw [if_neg]
      rintro (h | h) <;> obtain ⟨digits, rfl⟩ := List.head?_eq_some_iff.mp h
      · exact hlower digits rfl
      · exact hupper digits rfl
    · rename_i hother
      exact (hother cs rfl).elim
  all_goals
    rename_i heq
    exact absurd heq (hword _ (by decide))

private theorem referencedChar?_of_isNumbered (h : IsNumbered name c.toNat) :
    referencedChar? name = some c := by
  cases h with
  | hexadecimal hletter hsign hdigits =>
    have hread := (scalar?_signedNumeral?_eq_some_iff (by decide)).mpr
      ⟨_, _, hsign, rfl, hdigits⟩
    rw [referencedChar?_numberSign, if_pos (by simpa using hletter)]
    exact hread
  | decimal hsign hdigits =>
    have hread := (scalar?_signedNumeral?_eq_some_iff (by decide)).mpr
      ⟨_, _, hsign, rfl, hdigits⟩
    rw [referencedChar?_numberSign, if_neg, hread]
    -- neither a sign nor a decimal digit is that letter
    rcases hsign with rfl | rfl
    · obtain ⟨d, ds, rfl⟩ := List.exists_cons_of_ne_nil hdigits.ne_nil
      obtain ⟨value, hvalue⟩ := hdigits.exists_digitValue? (by decide)
      rintro (h | h) <;> cases h <;> cases hvalue
    · simp

theorem referencedChar?_eq_some_iff : referencedChar? name = some c ↔ Denotes name c := by
  constructor
  · intro h
    rw [referencedChar?.eq_def] at h
    split at h
    case h_7 =>
      split at h
      · obtain ⟨sign, digits, hsign, rfl, hdigits⟩ :=
          (scalar?_signedNumeral?_eq_some_iff (by decide)).mp h
        exact .number (.hexadecimal (.inl rfl) hsign hdigits)
      · obtain ⟨sign, digits, hsign, rfl, hdigits⟩ :=
          (scalar?_signedNumeral?_eq_some_iff (by decide)).mp h
        exact .number (.hexadecimal (.inr rfl) hsign hdigits)
      · obtain ⟨sign, digits, hsign, rfl, hdigits⟩ :=
          (scalar?_signedNumeral?_eq_some_iff (by decide)).mp h
        exact .number (.decimal hsign hdigits)
      · cases h
    all_goals
      rename_i heq
      cases h
      rw [← String.toList_ofList (l := name), heq]
      exact .word (by simp [namedChars])
  · intro h
    cases h with
    | word h =>
      simp only [namedChars, List.mem_cons, Prod.mk.injEq, List.not_mem_nil, or_false] at h
      rcases h with ⟨rfl, rfl⟩ | ⟨rfl, rfl⟩ | ⟨rfl, rfl⟩ | ⟨rfl, rfl⟩ | ⟨rfl, rfl⟩ | ⟨rfl, rfl⟩ <;>
        rfl
    | number h => exact referencedChar?_of_isNumbered h

/-! ### References -/

/-- A name ends at the next semicolon, if it is not too long. -/
theorem splitReferenceName_eq_some_iff {budget : Nat} :
    splitReferenceName budget cs = some (name, rest) ↔
      cs = name ++ ';' :: rest ∧ ';' ∉ name ∧ byteLength name ≤ budget := by
  induction cs generalizing budget name with
  | nil => simp [splitReferenceName]
  | cons d cs ih =>
    rw [splitReferenceName]
    by_cases hend : d = ';'
    · rw [if_pos hend, hend]
      rcases name with _ | ⟨e, name⟩
      · simp [byteLength, eq_comm]
      · simp only [Option.some.injEq, Prod.mk.injEq, List.cons_append, List.cons.injEq,
          List.mem_cons, not_or]
        grind
    · rw [if_neg hend]
      rcases name with _ | ⟨e, name⟩
      · simp [hend]
      · rw [Option.ite_none_right_eq_some, Option.map_eq_some_iff, byteLength]
        constructor
        · rintro ⟨hfits, ⟨name', rest'⟩, hsplit, heq⟩
          cases heq
          obtain ⟨rfl, hnot, hle⟩ := ih.mp hsplit
          exact ⟨rfl, by simp [Ne.symm hend, hnot], by omega⟩
        · rintro ⟨hcs, hnot, hle⟩
          obtain ⟨rfl, rfl⟩ := List.cons.inj hcs
          rw [List.mem_cons, not_or] at hnot
          exact ⟨by omega, (name, rest), ih.mpr ⟨rfl, hnot.2, by omega⟩, rfl⟩

private theorem Denotes.ne_nil (h : Denotes name c) : name ≠ [] := by
  rintro rfl
  exact absurd (referencedChar?_eq_some_iff.mpr h) (by simp [referencedChar?])

theorem readReference?_eq_some_iff : readReference? cs = some (c, rest) ↔ Refers cs c rest := by
  simp only [readReference?, Option.bind_eq_bind, Option.bind_eq_some_iff, Option.pure_def,
    Option.some.injEq, Prod.exists, Prod.mk.injEq, splitReferenceName_eq_some_iff,
    referencedChar?_eq_some_iff]
  constructor
  · rintro ⟨name, rest', ⟨hcs, hnot, hle⟩, c', hdenotes, rfl, rfl⟩
    have hpos : byteLength name ≠ 0 := mt byteLength_eq_zero_iff.mp hdenotes.ne_nil
    exact ⟨name, hcs, hnot, by omega, hle, hdenotes⟩
  · rintro ⟨name, hcs, hnot, -, hle, hdenotes⟩
    exact ⟨name, rest, ⟨hcs, hnot, hle⟩, c, hdenotes, rfl, rfl⟩

theorem readReference?_eq_none_iff :
    readReference? cs = none ↔ ∀ c rest, ¬ Refers cs c rest := by
  simp only [Option.eq_none_iff_forall_ne_some, ← readReference?_eq_some_iff, Prod.forall]

/-! ### Texts -/

theorem unescape_of_some (h : readReference? cs = some (c, rest)) :
    unescape ('&' :: cs) = c :: unescape rest := by
  rw [unescape, if_pos rfl]
  split <;> simp_all

theorem unescape_of_none (h : readReference? cs = none) :
    unescape ('&' :: cs) = '&' :: unescape cs := by
  rw [unescape, if_pos rfl]
  split <;> simp_all

private theorem unescape_of_ne (h : c ≠ '&') : unescape (c :: cs) = c :: unescape cs := by
  rw [unescape, if_neg h]

/-- Text without ampersands is kept. -/
theorem unescape_append (h : '&' ∉ first) (second : List Char) :
    unescape (first ++ second) = first ++ unescape second := by
  induction first with
  | nil => rfl
  | cons c first ih =>
    rw [List.mem_cons, not_or] at h
    rw [List.cons_append, unescape_of_ne (Ne.symm h.1), ih h.2, List.cons_append]

/-- Decoding gives a decoded form of the text. -/
theorem isDecoding_unescape (cs : List Char) : IsDecoding cs (unescape cs) := by
  induction cs using unescape.induct with
  | case1 =>
    rw [unescape]
    exact .nil
  | case2 cs c rest hread ih =>
    rw [unescape_of_some hread]
    exact .replaced (readReference?_eq_some_iff.mp hread) ih
  | case3 cs hread ih =>
    rw [unescape_of_none hread]
    exact .kept (readReference?_eq_none_iff.mp hread) ih
  | case4 c cs hne ih =>
    rw [unescape_of_ne hne]
    exact .other hne ih

/-- A text has one decoded form, the one that decoding gives. -/
theorem isDecoding_iff {out : List Char} : IsDecoding cs out ↔ out = unescape cs := by
  constructor
  · intro h
    induction h with
    | nil => rw [unescape]
    | other hne _ ih => rw [unescape_of_ne hne, ih]
    | replaced hrefers _ ih => rw [unescape_of_some (readReference?_eq_some_iff.mpr hrefers), ih]
    | kept hnone _ ih => rw [unescape_of_none (readReference?_eq_none_iff.mpr hnone), ih]
  · rintro rfl
    exact isDecoding_unescape cs

/-! ### Numbers -/

private theorem length_le_byteLength (cs : List Char) : cs.length ≤ byteLength cs := by
  induction cs with
  | nil => exact Nat.le_refl _
  | cons c cs ih =>
    have hc := c.utf8Size_pos
    rw [List.length_cons, byteLength]
    omega

/-- The number in a name that is not too long fits in 32 bits. -/
theorem IsNumbered.lt {code : Nat} (h : IsNumbered name code) (hlength : byteLength name ≤ 10) :
    code < 2 ^ 32 := by
  have hle := length_le_byteLength name
  cases h with
  | @decimal sign digits _ _ hdigits =>
    simp only [List.length_cons, List.length_append] at hle
    calc code < 10 ^ digits.length := hdigits.lt_pow
      _ ≤ 10 ^ 9 := Nat.pow_le_pow_right (by decide) (by omega)
      _ < 2 ^ 32 := by decide
  | @hexadecimal _ sign digits _ _ _ hdigits =>
    simp only [List.length_cons, List.length_append] at hle
    calc code < 16 ^ digits.length := hdigits.lt_pow
      _ ≤ 16 ^ 8 := Nat.pow_le_pow_right (by decide) (by omega)
      _ = 2 ^ 32 := by decide

private theorem plain_digitChar : ∀ value < 16,
    (value.digitChar.utf8Size = 1 ∧ value.digitChar ≠ ';') ∧
      value.digitChar.toUpper.utf8Size = 1 ∧ value.digitChar.toUpper ≠ ';' := by
  decide

/-- Digits have one byte each, and none is a semicolon. -/
private theorem Spells.plain {base n : Nat} (hbase : base ≤ 16) (h : Spells base digits n) :
    byteLength digits = digits.length ∧ ';' ∉ digits := by
  have hdigit : ∀ {c value}, IsDigitOf base c value → c.utf8Size = 1 ∧ c ≠ ';' := by
    rintro c value ⟨hlt, hc⟩
    have hplain := plain_digitChar value (Nat.lt_of_lt_of_le hlt hbase)
    rcases hc with rfl | rfl
    · exact hplain.1
    · exact hplain.2
  induction h with
  | one hc =>
    obtain ⟨hsize, hne⟩ := hdigit hc
    simp [byteLength, hsize, hne.symm]
  | more hcs hc ih =>
    obtain ⟨hsize, hne⟩ := hdigit hc
    simp [byteLength_append, byteLength, hsize, hne.symm, ih]

private theorem toNat_lt (c : Char) : c.toNat < 0x110000 := by
  rcases c.valid with h | ⟨-, h⟩
  · exact Nat.lt_trans h (by decide)
  · exact h

/-- A reference by number is decoded to the character that has the number. -/
theorem unescape_number {base : Nat} (lead : List Char)
    (hnumber : IsNumbered (lead ++ digits) c.toNat) (hbase : base ≤ 16)
    (hdigits : Spells base digits c.toNat) (hlead : ';' ∉ lead)
    (hlength : byteLength lead + digits.length ≤ 10) (hfirst : '&' ∉ first) (rest : List Char) :
    unescape (first ++ '&' :: (lead ++ digits ++ ';' :: rest)) = first ++ c :: unescape rest := by
  obtain ⟨hbytes, hnot⟩ := hdigits.plain hbase
  have hname : ';' ∉ lead ++ digits := by simp [hlead, hnot]
  have hle : byteLength (lead ++ digits) ≤ 10 := by rwa [byteLength_append, hbytes]
  have hpos : byteLength (lead ++ digits) ≠ 0 :=
    mt byteLength_eq_zero_iff.mp (Denotes.number hnumber).ne_nil
  have hrefers : Refers (lead ++ digits ++ ';' :: rest) c rest :=
    ⟨lead ++ digits, rfl, hname, by omega, hle, .number hnumber⟩
  rw [unescape_append hfirst, unescape_of_some (readReference?_eq_some_iff.mpr hrefers)]

/-- Every character can be written by its number in decimal digits. -/
theorem unescape_toDigits_ten (c : Char) (hfirst : '&' ∉ first) (rest : List Char) :
    unescape (first ++ '&' :: '#' :: (Nat.toDigits 10 c.toNat ++ ';' :: rest)) =
      first ++ c :: unescape rest := by
  have hdigits := spells_toDigits (by decide : 1 < 10) c.toNat
  have hlength : (Nat.toDigits 10 c.toNat).length ≤ 9 :=
    (Nat.length_toDigits_le_iff (by decide) (by decide)).mpr
      (Nat.lt_trans (toNat_lt c) (by decide))
  exact unescape_number ['#'] (.decimal (.inl rfl) hdigits) (by decide) hdigits (by decide)
    (Nat.add_le_add_left hlength 1) hfirst rest

/-- Every character can be written by its number in hexadecimal digits, in either case. -/
theorem unescape_toDigits_sixteen (c : Char) (hfirst : '&' ∉ first) (rest : List Char)
    (h : digits = Nat.toDigits 16 c.toNat ∨ digits = (Nat.toDigits 16 c.toNat).map Char.toUpper) :
    unescape (first ++ '&' :: '#' :: 'x' :: (digits ++ ';' :: rest)) =
      first ++ c :: unescape rest := by
  have hlower := spells_toDigits (by decide : 1 < 16) c.toNat
  have hlength : (Nat.toDigits 16 c.toNat).length ≤ 8 :=
    (Nat.length_toDigits_le_iff (by decide) (by decide)).mpr
      (Nat.lt_trans (toNat_lt c) (by decide))
  have hboth : Spells 16 digits c.toNat ∧ digits.length ≤ 8 := by
    rcases h with rfl | rfl
    · exact ⟨hlower, hlength⟩
    · exact ⟨hlower.map_toUpper (by decide), by rwa [List.length_map]⟩
  exact unescape_number ['#', 'x'] (.hexadecimal (.inl rfl) (.inl rfl) hboth.1) (by decide)
    hboth.1 (by decide) (Nat.add_le_add_left hboth.2 2) hfirst rest

end IconMarkup.Text
