/-!
# White space and comments in TOML

Space and tab separate the words of a line. A line ends in a line feed, with or without a carriage
return before it, and may end in a comment.
-/

namespace IconMarkup.Toml

/-- Space and tab. -/
def isBlank (c : Char) : Bool :=
  c == ' ' || c == '\t'

/-- Tab and everything that is no control character: what may stand in comments and in quotes. -/
def isPlain (c : Char) : Bool :=
  c == '\t' || (' ' ≤ c && c != '\x7f')

/-- Skips spaces and tabs. -/
def skipBlanks (cs : List Char) : List Char :=
  cs.dropWhile isBlank

/-- Takes a line end. -/
def takeNewline? : List Char → Option (List Char)
  | '\n' :: rest => some rest
  | '\r' :: '\n' :: rest => some rest
  | _ => none

/-- A line end takes at least one character. -/
theorem length_of_takeNewline? {cs rest : List Char} (h : takeNewline? cs = some rest) :
    rest.length < cs.length := by
  unfold takeNewline? at h
  split at h
  · obtain rfl := Option.some.inj h
    simp
  · obtain rfl := Option.some.inj h
    simp only [List.length_cons]
    omega
  · exact absurd h (by simp)

/-- Skips a comment, up to the end of its line. -/
def skipComment : List Char → List Char
  | '#' :: rest => rest.dropWhile isPlain
  | cs => cs

theorem length_skipBlanks_le (cs : List Char) : (skipBlanks cs).length ≤ cs.length :=
  (List.dropWhile_sublist isBlank).length_le

theorem length_skipComment_le (cs : List Char) : (skipComment cs).length ≤ cs.length := by
  unfold skipComment
  split
  · exact Nat.le_trans (List.dropWhile_sublist isPlain).length_le (by simp)
  · exact Nat.le_refl _

/-- Takes the rest of a line on which nothing but a comment may follow. -/
def takeLineEnd? (cs : List Char) : Option (List Char) :=
  match skipComment (skipBlanks cs) with
  | [] => some []
  | rest => takeNewline? rest

/-- Skips blanks, comments and line ends. -/
def skipLines (cs : List Char) : List Char :=
  match _h : takeNewline? (skipComment (skipBlanks cs)) with
  | some rest => skipLines rest
  | none => skipBlanks cs
termination_by cs.length
decreasing_by
  have h₁ := length_of_takeNewline? _h
  have h₂ := length_skipComment_le (skipBlanks cs)
  have h₃ := length_skipBlanks_le cs
  omega

/-- Skips blanks and line ends. -/
def skipBlankLines (cs : List Char) : List Char :=
  match _h : takeNewline? (skipBlanks cs) with
  | some rest => skipBlankLines rest
  | none => skipBlanks cs
termination_by cs.length
decreasing_by
  have h₁ := length_of_takeNewline? _h
  have h₂ := length_skipBlanks_le cs
  omega

theorem length_skipBlankLines_le (cs : List Char) : (skipBlankLines cs).length ≤ cs.length := by
  fun_induction skipBlankLines cs with
  | case1 cs rest h ih =>
    have h₁ := length_of_takeNewline? h
    have h₂ := length_skipBlanks_le cs
    omega
  | case2 cs _ => exact length_skipBlanks_le cs

end IconMarkup.Toml
