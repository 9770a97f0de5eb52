import IconMarkup.Proofs.Text.Offsets
import IconMarkup.Proofs.Text.References

/-!
# Decoding with byte offsets

The decoding of `unescape` in rounds that go by byte offsets: a round looks for the next ampersand
and for the semicolon behind it, and takes the text apart at the offsets that it finds (`round?`).
Each cut falls between two characters, whatever the text is, so that a round never fails, and the
rounds come to an end with what `unescape` gives (`rounds_iff`).

`unescape_decodes` is all that can be said of decoding: what it gives, how it is found, that the
numbers of references are small, and that every character can be written by its number.
-/

namespace IconMarkup.Text

/-! ### Byte offsets and rounds -/

/-- Cuts a text at a byte offset; `none` if the offset is inside a character or behind the end. -/
def cutAt? (offset : Nat) (cs : List Char) : Option (List Char × List Char) :=
  if (⟨offset⟩ : String.Pos.Raw).IsValid (String.ofList cs) then
    some (takeBytes offset cs, dropBytes offset cs)
  else none

/-- The byte offset at which a character first stands. -/
def offsetOf? (c : Char) : List Char → Option Nat
  | [] => none
  | d :: cs => if d = c then some 0 else (offsetOf? c cs).map (d.utf8Size + ·)

/-- The character of a name that ends in a semicolon. -/
def closedReference? (entity : List Char) : Option Char :=
  if entity.getLast? = some ';' then referencedChar? entity.dropLast else none

/-- What a round of decoding writes, and what it leaves to the next one; the last round leaves
nothing. -/
structure Round where
  /-- The decoded text. -/
  written : List Char
  /-- The text that is still to be decoded. -/
  left : Option (List Char)

/-- A round of decoding; `none` if the text is cut inside a character. -/
def round? (cs : List Char) : Option Round :=
  match offsetOf? '&' cs with
  | none => some ⟨cs, none⟩
  | some start => do
    let (before, tail) ← cutAt? start cs
    let (_, after) ← cutAt? 1 tail
    match (offsetOf? ';' after).filter fun stop => 0 < stop ∧ stop ≤ maxReferenceName with
    | none => return ⟨before ++ ['&'], some after⟩
    | some stop =>
      let (entity, _) ← cutAt? (stop + 1) after
      match closedReference? entity with
      | none => return ⟨before ++ ['&'], some after⟩
      | some c =>
        let (_, rest) ← cutAt? (1 + byteLength entity) tail
        return ⟨before ++ [c], some rest⟩

/-- Whether rounds of decoding, none of which fails, turn the first text into the second. -/
inductive Rounds : List Char → List Char → Prop
  | last {cs written : List Char} (h : round? cs = some ⟨written, none⟩) : Rounds cs written
  | next {cs written left out : List Char} (h : round? cs = some ⟨written, some left⟩)
    (hleft : Rounds left out) : Rounds cs (written ++ out)

variable {cs before after : List Char} {c : Char} {offset : Nat}

/-! ### Offsets -/

theorem cutAt?_byteLength_append (before after : List Char) :
    cutAt? (byteLength before) (before ++ after) = some (before, after) := by
  have hvalid : (⟨byteLength before⟩ : String.Pos.Raw).IsValid (String.ofList (before ++ after)) :=
    isValid_iff.mpr ⟨before, after, String.toList_ofList, rfl⟩
  rw [cutAt?, if_pos hvalid, takeBytes_byteLength_append, dropBytes_byteLength_append]

/-- A cut loses nothing. -/
theorem append_of_cutAt? (h : cutAt? offset cs = some (before, after)) : before ++ after = cs := by
  rw [cutAt?] at h
  split at h
  · rename_i hvalid
    obtain ⟨first, second, hcs, rfl⟩ := isValid_iff.mp hvalid
    rw [String.toList_ofList] at hcs
    rw [hcs, takeBytes_byteLength_append, dropBytes_byteLength_append] at h
    cases h
    exact hcs.symm
  · cases h

theorem offsetOf?_append (h : c ∉ before) (after : List Char) :
    offsetOf? c (before ++ c :: after) = some (byteLength before) := by
  induction before with
  | nil => simp [offsetOf?, byteLength]
  | cons d before ih =>
    rw [List.mem_cons, not_or] at h
    rw [List.cons_append, offsetOf?, if_neg (Ne.symm h.1), ih h.2, byteLength]
    rfl

theorem offsetOf?_eq_none (h : c ∉ cs) : offsetOf? c cs = none := by
  induction cs with
  | nil => rfl
  | cons d cs ih =>
    rw [List.mem_cons, not_or] at h
    rw [offsetOf?, if_neg (Ne.symm h.1), ih h.2]
    rfl

/-! ### One round -/

/-- Where there is no ampersand, the round is the last one. -/
private theorem round?_of_notMem (h : '&' ∉ cs) : round? cs = some ⟨cs, none⟩ := by
  rw [round?, offsetOf?_eq_none h]

private theorem closedReference?_concat (name : List Char) :
    closedReference? (name ++ [';']) = referencedChar? name := by
  simp [closedReference?]

private theorem readReference?_of_notMem (h : ';' ∉ cs) : readReference? cs = none := by
  refine Option.eq_none_iff_forall_ne_some.mpr fun found hread => ?_
  obtain ⟨name, rfl, -⟩ := readReference?_eq_some_iff.mp hread
  simp at h

private theorem readReference?_append {name : List Char} (h : ';' ∉ name) (rest : List Char) :
    readReference? (name ++ ';' :: rest) =
      if 0 < byteLength name ∧ byteLength name ≤ maxReferenceName then
        (referencedChar? name).map (·, rest)
      else none := by
  by_cases hfits : 0 < byteLength name ∧ byteLength name ≤ maxReferenceName
  · have hsplit : splitReferenceName maxReferenceName (name ++ ';' :: rest) = some (name, rest) :=
      splitReferenceName_eq_some_iff.mpr ⟨rfl, h, hfits.2⟩
    simp only [if_pos hfits, readReference?, hsplit, Option.bind_eq_bind, Option.bind_some]
    rcases referencedChar? name with _ | c <;> rfl
  · rw [if_neg hfits]
    refine Option.eq_none_iff_forall_ne_some.mpr fun found hread => hfits ?_
    -- what is read ends at the same semicolon
    obtain ⟨name', hcs, hname', hpos, hle, -⟩ := readReference?_eq_some_iff.mp hread
    have hsame := offsetOf?_append h rest
    rw [hcs, offsetOf?_append hname', Option.some_inj] at hsame
    rw [← hsame]
    exact ⟨hpos, hle⟩

/-- Where there is an ampersand, the round ends behind it, or behind the reference that it
begins. -/
private theorem round?_append (h : '&' ∉ before) (after : List Char) :
    round? (before ++ '&' :: after) = some (match readReference? after with
      | some (c, rest) => ⟨before ++ [c], some rest⟩
      | none => ⟨before ++ ['&'], some after⟩) := by
  have hone : cutAt? 1 ('&' :: after) = some (['&'], after) := cutAt?_byteLength_append ['&'] after
  simp only [round?, offsetOf?_append h, cutAt?_byteLength_append, hone, Option.bind_eq_bind,
    Option.bind_some]
  by_cases hend : ';' ∈ after
  · obtain ⟨name, rest, rfl, hname⟩ : ∃ name rest, after = name ++ ';' :: rest ∧ ';' ∉ name :=
      List.eq_append_cons_of_mem hend
    have hentity : cutAt? (byteLength name + 1) (name ++ ';' :: rest) =
        some (name ++ [';'], rest) := by
      have hcut := cutAt?_byteLength_append (name ++ [';']) rest
      rwa [byteLength_append, List.append_assoc] at hcut
    have hrest : cutAt? (1 + byteLength (name ++ [';'])) ('&' :: (name ++ ';' :: rest)) =
        some ('&' :: (name ++ [';']), rest) := by
      have hcut := cutAt?_byteLength_append ('&' :: (name ++ [';'])) rest
      rwa [List.cons_append, List.append_assoc] at hcut
    rw [offsetOf?_append hname, Option.filter_some, readReference?_append hname]
    by_cases hfits : 0 < byteLength name ∧ byteLength name ≤ maxReferenceName
    · rw [if_pos (by simpa using hfits), if_pos hfits]
      simp only [hentity, Option.bind_some, closedReference?_concat, hrest]
      rcases referencedChar? name with _ | c <;> rfl
    · rw [if_neg (by simpa using hfits), if_neg hfits]
      rfl
  · rw [offsetOf?_eq_none hend, readReference?_of_notMem hend]
    rfl

/-- A round keeps or replaces the ampersand as decoding does. -/
private theorem exists_round? (h : '&' ∉ before) (after : List Char) :
    ∃ c left, round? (before ++ '&' :: after) = some ⟨before ++ [c], some left⟩ ∧
      left.length ≤ after.length ∧
      unescape (before ++ '&' :: after) = before ++ [c] ++ unescape left := by
  rw [round?_append h, unescape_append h]
  rcases hread : readReference? after with _ | ⟨c, rest⟩
  · refine ⟨'&', after, rfl, Nat.le_refl _, ?_⟩
    rw [unescape_of_none hread, List.append_assoc, List.singleton_append]
  · refine ⟨c, rest, rfl, Nat.le_of_lt (length_of_readReference hread), ?_⟩
    rw [unescape_of_some hread, List.append_assoc, List.singleton_append]

/-! ### All rounds -/

/-- The rounds come to an end, none of them fails, and together they give what decoding gives. -/
theorem rounds_unescape (cs : List Char) : Rounds cs (unescape cs) := by
  induction hlength : cs.length using Nat.strongRecOn generalizing cs with
  | ind length ih =>
    subst hlength
    by_cases hmem : '&' ∈ cs
    · obtain ⟨before, after, rfl, hbefore⟩ := List.eq_append_cons_of_mem hmem
      obtain ⟨c, left, hround, hle, hdecoded⟩ := exists_round? hbefore after
      rw [hdecoded]
      refine .next hround (ih left.length ?_ left rfl)
      rw [List.length_append, List.length_cons]
      omega
    · have hkept := unescape_append hmem []
      rw [List.append_nil, unescape, List.append_nil] at hkept
      rw [hkept]
      exact .last (round?_of_notMem hmem)

theorem Rounds.unique {out out' : List Char} (h : Rounds cs out) (h' : Rounds cs out') :
    out = out' := by
  induction h generalizing out' with
  | last h =>
    cases h' with
    | last h' =>
      rw [h] at h'
      cases h'
      rfl
    | next h' _ =>
      rw [h] at h'
      cases h'
  | next h _ ih =>
    cases h' with
    | last h' =>
      rw [h] at h'
      cases h'
    | next h' hleft =>
      rw [h] at h'
      cases h'
      rw [ih hleft]

/-- The rounds that a text goes through give what decoding gives. -/
theorem rounds_iff {out : List Char} : Rounds cs out ↔ out = unescape cs := by
  refine ⟨fun h => h.unique (rounds_unescape cs), ?_⟩
  rintro rfl
  exact rounds_unescape cs

/-- Decoding gives the one decoded form of a text: from left to right, an ampersand is replaced
together with a name of one to ten bytes and the next semicolon exactly if the name denotes a
character, and everything else is kept. It can go by byte offsets, and then it cuts the text between
characters only and comes to an end. The number in such a name fits in 32 bits, and by its number
every character can be written, in decimal or hexadecimal digits. -/
theorem unescape_decodes (cs : List Char) :
    (∀ out, IsDecoding cs out ↔ out = unescape cs) ∧
      (∀ out, Rounds cs out ↔ out = unescape cs) ∧
      (∀ name code, IsNumbered name code → byteLength name ≤ 10 → code < 2 ^ 32) ∧
      ∀ (before : List Char) (c : Char) (after : List Char), '&' ∉ before →
        unescape (before ++ '&' :: '#' :: (Nat.toDigits 10 c.toNat ++ ';' :: after)) =
            before ++ c :: unescape after ∧
          ∀ digits ∈ [Nat.toDigits 16 c.toNat, (Nat.toDigits 16 c.toNat).map Char.toUpper],
            unescape (before ++ '&' :: '#' :: 'x' :: (digits ++ ';' :: after)) =
              before ++ c :: unescape after := by
  refine ⟨fun _ => isDecoding_iff, fun _ => rounds_iff, fun _ _ => IsNumbered.lt,
    fun before c after hbefore => ⟨unescape_toDigits_ten c hbefore after, fun digits hdigits => ?_⟩⟩
  exact unescape_toDigits_sixteen c hbefore after (by simpa using hdigits)

/-- A character outside the basic plane is read back from its number, and the greatest number that
fits in a name is one less than the bound. -/
theorem unescape_decodes_clef :
    let before := "é;".toList
    let after := "&#xD800;&x&lt;".toList
    '&' ∉ before ∧ Nat.toDigits 16 '𝄞'.toNat = "1d11e".toList ∧
      unescape (before ++ '&' :: '#' :: ("119070".toList ++ ';' :: after)) =
        before ++ '𝄞' :: unescape after ∧
      unescape (before ++ '&' :: '#' :: 'x' :: ("1D11E".toList ++ ';' :: after)) =
        before ++ '𝄞' :: unescape after ∧
      IsNumbered "#xffffffff".toList 4294967295 ∧ byteLength "#xffffffff".toList ≤ 10 ∧
      4294967295 < 2 ^ 32 := by
  intro before after
  have hbefore : '&' ∉ before := by decide
  have hnumber : IsNumbered "#xffffffff".toList 4294967295 :=
    .hexadecimal (.inl rfl) (.inl rfl) ((numeral?_eq_some_iff (by decide)).mp rfl)
  have hlength : byteLength "#xffffffff".toList ≤ 10 := by decide
  obtain ⟨-, -, hsmall, hwritten⟩ := unescape_decodes []
  obtain ⟨hdecimal, hhexadecimal⟩ := hwritten before '𝄞' after hbefore
  exact ⟨hbefore, by decide, hdecimal, hhexadecimal _ (by decide), hnumber, hlength,
    hsmall _ _ hnumber hlength⟩

example : unescape "&&amp;&#+65;&#0000000065;".toList = "&&A&#0000000065;".toList := by
  decide +kernel

end IconMarkup.Text
