import IconMarkup.Proofs.Text.Escaping
import IconMarkup.Text.Bytes

/-!
# Decoders that know more references

A `Decoder` reads character references like `unescape` and may know more of them: what `unescape`
keeps as it is may stand for something else. Whatever it knows, it undoes escaping
(`Decoder.decode_escapeText`), since the references that escaping writes are known to `unescape`.
`Decoder.withNames` is the decoder that knows a list of further names.
-/

namespace IconMarkup.Text

/-- A decoder of character references that agrees with `unescape` on all that `unescape` decodes.
What it makes of any other ampersand is left open. -/
structure Decoder where
  /-- The decoded text. -/
  decode : List Char → List Char
  decode_nil : decode [] = []
  decode_of_ne : ∀ {c cs}, c ≠ '&' → decode (c :: cs) = c :: decode cs
  decode_of_readReference? : ∀ {cs c rest}, readReference? cs = some (c, rest) →
    decode ('&' :: cs) = c :: decode rest

namespace Decoder

/-- A written character decodes to itself, whatever follows. -/
private theorem decode_escapeWith_singleton_append (decoder : Decoder)
    {reference? : Char → Option String} (h : Decodes reference?) (c : Char) (rest : List Char) :
    decoder.decode (escapeWith reference? [c] ++ rest) = c :: decoder.decode rest := by
  rcases hc : reference? c with _ | reference
  · have hne : c ≠ '&' := by
      rintro rfl
      exact h.ampersand hc
    rw [escapeWith_singleton_of_none hc, List.singleton_append, decoder.decode_of_ne hne]
  · obtain ⟨name, hname, hread⟩ := h.reads hc
    rw [escapeWith_singleton_of_some hc, hname, List.cons_append,
      decoder.decode_of_readReference? (hread rest)]

/-- Running text decodes to what was written, whatever else the decoder knows. -/
theorem decode_escapeText (decoder : Decoder) (cs : List Char) :
    decoder.decode (escapeText cs) = cs := by
  induction cs with
  | nil => exact decoder.decode_nil
  | cons c cs ih =>
    rw [escapeText, escapeWith_cons,
      decoder.decode_escapeWith_singleton_append decodes_textReference?]
    exact congrArg (c :: ·) ih

/-- Reads a reference by a further name whose ampersand stands just before the text. -/
def readNamed? (named? : List Char → Option Char) (cs : List Char) : Option (Char × List Char) := do
  let (name, rest) ← splitReferenceName (byteLength cs) cs
  return (← named? name, rest)

private theorem length_of_readNamed? {named? : List Char → Option Char} {cs rest : List Char}
    {c : Char} (h : readNamed? named? cs = some (c, rest)) : rest.length < cs.length := by
  simp only [readNamed?, Option.bind_eq_bind, Option.bind_eq_some_iff, Option.pure_def,
    Option.some.injEq, Prod.mk.injEq] at h
  obtain ⟨⟨name, rest'⟩, hsplit, _, -, -, rfl⟩ := h
  have hlength := length_of_splitReferenceName hsplit
  dsimp only
  omega

/-- Decodes the references that `unescape` decodes, and those by a further name. -/
def decodeWith (named? : List Char → Option Char) : List Char → List Char
  | [] => []
  | c :: cs =>
    if c = '&' then
      match _h : (readReference? cs).or (readNamed? named? cs) with
      | some (decoded, rest) => decoded :: decodeWith named? rest
      | none => '&' :: decodeWith named? cs
    else c :: decodeWith named? cs
termination_by cs => cs.length
decreasing_by
  · have hlength : rest.length < cs.length := by
      rcases Option.or_eq_some_iff.mp _h with h | ⟨-, h⟩
      · exact length_of_readReference h
      · exact length_of_readNamed? h
    simp only [List.length_cons]
    omega
  all_goals simp

/-- The decoder that knows further names. -/
def withNames (named? : List Char → Option Char) : Decoder where
  decode := decodeWith named?
  decode_nil := by rw [decodeWith]
  decode_of_ne h := by rw [decodeWith, if_neg h]
  decode_of_readReference? {cs c rest} h := by
    rw [decodeWith, if_pos rfl]
    split
    · rename_i hread
      rw [h, Option.some_or] at hread
      cases hread
      rfl
    · rename_i hread
      rw [h, Option.some_or] at hread
      cases hread

end Decoder

end IconMarkup.Text
