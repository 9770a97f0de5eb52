import IconMarkup.Text.Numeral

/-!
# Character references

`unescape` decodes the references that it knows and keeps everything else. A reference is `&`, a
name of one to ten bytes and the next `;`; the name is one of six words or a number sign with a
decimal or hexadecimal code point. After an ampersand that begins no such reference, decoding goes
on with the very next character.
-/

namespace IconMarkup.Text

/-- The longest name of a reference, in bytes. -/
def maxReferenceName : Nat := 10

/-- Cuts at the first `;` that has at most `budget` bytes before it. -/
def splitReferenceName : (budget : Nat) → List Char → Option (List Char × List Char)
  | _, [] => none
  | budget, c :: cs =>
    if c = ';' then some ([], cs)
    else if c.utf8Size ≤ budget then
      (splitReferenceName (budget - c.utf8Size) cs).map fun (name, rest) => (c :: name, rest)
    else none

theorem length_of_splitReferenceName {budget : Nat} {cs name rest : List Char}
    (h : splitReferenceName budget cs = some (name, rest)) :
    name.length + rest.length < cs.length := by
  induction cs generalizing budget name with
  | nil => simp [splitReferenceName] at h
  | cons c cs ih =>
    rw [splitReferenceName] at h
    split at h
    · simp only [Option.some.injEq, Prod.mk.injEq] at h
      obtain ⟨rfl, rfl⟩ := h
      simp
    · split at h
      · obtain ⟨⟨n, r⟩, hn, he⟩ := Option.map_eq_some_iff.1 h
        simp only [Prod.mk.injEq] at he
        obtain ⟨rfl, rfl⟩ := he
        have := ih hn
        simp only [List.length_cons]
        omega
      · simp at h

/-- The character with a code point, if there is one. -/
def scalar? (code : Nat) : Option Char :=
  if h : code.isValidChar then some (Char.ofNatAux code h) else none

/-- The character that a reference of this name denotes. -/
def referencedChar? (name : List Char) : Option Char :=
  match String.ofList name with
  | "lt" => some '<'
  | "gt" => some '>'
  | "amp" => some '&'
  | "quot" => some '"'
  | "apos" => some '\''
  | "nbsp" => some '\u00a0'
  | _ =>
    match name with
    | '#' :: 'x' :: digits => signedNumeral? 16 digits >>= scalar?
    | '#' :: 'X' :: digits => signedNumeral? 16 digits >>= scalar?
    | '#' :: digits => signedNumeral? 10 digits >>= scalar?
    | _ => none

/-- Reads the reference whose ampersand stands just before the text. -/
def readReference? (cs : List Char) : Option (Char × List Char) := do
  let (name, rest) ← splitReferenceName maxReferenceName cs
  return (← referencedChar? name, rest)

theorem length_of_readReference {cs rest : List Char} {c : Char}
    (h : readReference? cs = some (c, rest)) : rest.length < cs.length := by
  simp only [readReference?, Option.bind_eq_bind, Option.bind_eq_some_iff, Option.pure_def,
    Option.some.injEq, Prod.mk.injEq] at h
  obtain ⟨⟨name, rest'⟩, hs, c', -, -, rfl⟩ := h
  have := length_of_splitReferenceName hs
  change rest'.length < cs.length
  omega

/-- Replaces each known reference by its character. -/
def unescape : List Char → List Char
  | [] => []
  | c :: cs =>
    if c = '&' then
      match _h : readReference? cs with
      | some (decoded, rest) => decoded :: unescape rest
      | none => '&' :: unescape cs
    else c :: unescape cs
termination_by cs => cs.length
decreasing_by
  · have := length_of_readReference _h
    simp only [List.length_cons]
    omega
  all_goals simp

end IconMarkup.Text
