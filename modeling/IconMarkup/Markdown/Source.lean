import IconMarkup.Text.Numeral
import IconMarkup.Text.Punctuation

/-!
# Markdown text

A Markdown text as an array of characters, with the questions that a reader asks at a position:
how far a run of characters goes, whether a line ends here, where the next line begins. A line ends
at a line feed, at a carriage return with or without a line feed, or at the end of the text.
-/

namespace IconMarkup.Markdown

/-- The characters of a Markdown text. -/
abbrev Source := Array Char

/-- White space inside a line: tab, vertical tab, form feed and space. -/
def isLineBlank (c : Char) : Bool :=
  c == ' ' || c == '\t' || c == '\x0b' || c == '\x0c'

/-- White space inside a line and line ends. -/
def isMarkdownBlank (c : Char) : Bool :=
  isLineBlank c || c == '\n' || c == '\r'

namespace Source

/-- Whether a character stands at a position. -/
def has (s : Source) (i : Nat) (c : Char) : Bool :=
  s[i]? == some c

/-- Whether a character of a kind stands at a position. -/
def hasKind (s : Source) (isKind : Char → Bool) (i : Nat) : Bool :=
  s[i]?.any isKind

/-- The first position from `i` on whose character is not of a kind. -/
def skipWhile (s : Source) (isKind : Char → Bool) (i : Nat) : Nat :=
  if h : i < s.size then
    if isKind s[i] then skipWhile s isKind (i + 1) else i
  else i
termination_by s.size - i

/-- The first position from which all characters before `i`, back to `start`, are of a kind. -/
def backWhile (s : Source) (isKind : Char → Bool) (start : Nat) : Nat → Nat
  | 0 => 0
  | i + 1 =>
    if start ≤ i then
      if s.hasKind isKind i then backWhile s isKind start i else i + 1
    else i + 1

/-- How often a character is repeated from a position on. -/
def runLength (s : Source) (c : Char) (i : Nat) : Nat :=
  s.skipWhile (· == c) i - i

/-- The position after the line end at `i`, if a line ends there. -/
def lineEnd? (s : Source) (i : Nat) : Option Nat :=
  match s[i]? with
  | none => some i
  | some c =>
    if c == '\n' then some (i + 1)
    else if c == '\r' then some (if s.has (i + 1) '\n' then i + 2 else i + 1)
    else none

/-- Skips white space inside the line. -/
def skipBlanks (s : Source) (i : Nat) : Nat :=
  s.skipWhile isLineBlank i

/-- The position after the line end, if nothing but white space comes before it. -/
def blankLine? (s : Source) (i : Nat) : Option Nat :=
  s.lineEnd? (s.skipBlanks i)

/-- The position after the next line feed. -/
def nextLine (s : Source) (i : Nat) : Nat :=
  min s.size (s.skipWhile (· != '\n') i + 1)

/-- The characters between two positions. -/
def slice (s : Source) (start stop : Nat) : List Char :=
  (s.extract start stop).toList

/-- The text between two positions. -/
def text (s : Source) (start stop : Nat) : String :=
  String.ofList (s.slice start stop)

/-- Whether a word stands at a position. -/
def hasWord (s : Source) (i : Nat) (word : String) : Bool :=
  s.slice i (i + word.length) == word.toList

/-- Whether a word in lower case stands at a position, whatever the case of ASCII letters. -/
def hasWordInAnyCase (s : Source) (i : Nat) (word : String) : Bool :=
  (s.slice i (i + word.length)).map Char.toLower == word.toList

/-- Where a word first stands between two positions. -/
def findWord? (s : Source) (word : String) (start stop : Nat) : Option Nat :=
  if h : start < stop then
    if start + word.length ≤ stop && s.hasWord start word then some start
    else findWord? s word (start + 1) stop
  else none
termination_by stop - start

end Source

end IconMarkup.Markdown
