import IconMarkup.Icon.Style
import IconMarkup.Text.Bytes
import IconMarkup.Text.Lead

/-!
# Shortcodes

A shortcode is `:fa-`, the keyword of a style, a colon, an icon name of ASCII letters, digits and
hyphens, and a colon. `scan` finds the shortcodes of a text from left to right; each begins where
the text first allows it after the end of the one before.
-/

namespace IconMarkup.Icon

/-- A shortcode found in a text. Positions count bytes. -/
structure Shortcode where
  /-- The family of the icon. -/
  style : Style
  /-- The name of the icon. -/
  icon : String
  /-- Where the shortcode begins. -/
  start : Nat
  /-- How long it is. -/
  length : Nat
  deriving DecidableEq, Repr

namespace Shortcode

/-- Where the shortcode ends. -/
def stop (shortcode : Shortcode) : Nat :=
  shortcode.start + shortcode.length

end Shortcode

/-- The characters before the keyword of the style. -/
def shortcodeLead : List Char := [':', 'f', 'a', '-']

/-- The written form of a shortcode. -/
def spelling (style : Style) (icon : List Char) : List Char :=
  shortcodeLead ++ style.keyword.toList ++ ':' :: icon ++ [':']

/-- The written form of a found shortcode. -/
def Shortcode.display (shortcode : Shortcode) : String :=
  String.ofList (spelling shortcode.style shortcode.icon.toList)

/-- Whether a character may stand in the name of an icon. -/
def isIconChar (c : Char) : Bool :=
  c.isAlphanum || c == '-'

/-- Reads the keyword of a style and the colon after it. -/
def readStyle? (cs : List Char) : Option (Style × List Char) :=
  Style.all.findSome? fun style =>
    (Text.afterLead? (style.keyword.toList ++ [':']) cs).map (style, ·)

/-- Reads a shortcode at the start of a text: its style, the name of its icon and what follows. -/
def readShortcode? (cs : List Char) : Option (Style × List Char × List Char) := do
  let keyword ← Text.afterLead? shortcodeLead cs
  let (style, name) ← readStyle? keyword
  let icon := name.takeWhile isIconChar
  match name.dropWhile isIconChar with
  | ':' :: rest => if icon.isEmpty then none else some (style, icon, rest)
  | _ => none

theorem eq_append_of_readStyle? {cs rest : List Char} {style : Style}
    (h : readStyle? cs = some (style, rest)) : cs = style.keyword.toList ++ ':' :: rest := by
  obtain ⟨_, style', _, -, hs, -⟩ := List.findSome?_eq_some_iff.1 h
  obtain ⟨rest', hr, he⟩ := Option.map_eq_some_iff.1 hs
  simp only [Prod.mk.injEq] at he
  obtain ⟨rfl, rfl⟩ := he
  simpa using Text.afterLead?_eq_some_iff.1 hr

/-- A text that begins with a shortcode is its written form and what follows. -/
theorem eq_spelling_append_of_readShortcode? {cs icon rest : List Char} {style : Style}
    (h : readShortcode? cs = some (style, icon, rest)) : cs = spelling style icon ++ rest := by
  simp only [readShortcode?, Option.bind_eq_bind, Option.bind_eq_some_iff] at h
  obtain ⟨keyword, hk, ⟨style', name⟩, hn, h⟩ := h
  dsimp only at h
  split at h
  · rename_i rest' hrest
    split at h
    · simp at h
    · simp only [Option.some.injEq, Prod.mk.injEq] at h
      obtain ⟨rfl, rfl, rfl⟩ := h
      have hname : name = name.takeWhile isIconChar ++ ':' :: rest' := by
        rw [← hrest, List.takeWhile_append_dropWhile]
      rw [Text.afterLead?_eq_some_iff.1 hk, eq_append_of_readStyle? hn]
      conv => lhs; rw [hname]
      simp [spelling]
  · simp at h

theorem length_of_readShortcode? {cs icon rest : List Char} {style : Style}
    (h : readShortcode? cs = some (style, icon, rest)) : rest.length < cs.length := by
  rw [eq_spelling_append_of_readShortcode? h]
  simp only [spelling, shortcodeLead, List.length_append, List.length_cons, List.length_nil]
  omega

/-- The shortcodes of a text that begins at the given position. -/
def scanFrom (start : Nat) : List Char → List Shortcode
  | [] => []
  | c :: cs =>
    match _h : readShortcode? (c :: cs) with
    | some (style, icon, rest) =>
      let length := Text.byteLength (spelling style icon)
      ⟨style, String.ofList icon, start, length⟩ :: scanFrom (start + length) rest
    | none => scanFrom (start + c.utf8Size) cs
termination_by cs => cs.length
decreasing_by
  · exact length_of_readShortcode? _h
  · simp

/-- The shortcodes of a text, from left to right. -/
def scan (text : String) : List Shortcode :=
  scanFrom 0 text.toList

end IconMarkup.Icon
