import IconMarkup.Markdown.Item

/-!
# Link titles

A title stands in single or double quotes or in parentheses. Inside a block it may go on over
several lines, each of which begins at its first item.
-/

namespace IconMarkup.Markdown

/-- The character that closes a title, by the one that opens it. -/
def titleCloser? (c : Char) : Option Char :=
  if c == '"' || c == '\'' then some c else if c == '(' then some ')' else none

/-- Where reading goes on after the line end at a position: at the first item of the next line. -/
def lineResume? (items : List Item) (i : Nat) : Option Nat :=
  match items.find? fun item => i + 1 < item.stop with
  | some item => if i < item.start then some item.start else none
  | none => none

/-- Reads a title up to its closing character: its characters and the position after it. In a table,
two backslashes before a bar stand for the bar, and punctuation after the bar takes its place. -/
def readTitleFrom? (s : Source) (inTable : Bool) (items : List Item) (stop : Nat)
    (opener closer : Char) (i : Nat) (found : List Char) : Option (String × Nat) :=
  if _h : i < stop then
    match s[i]? with
    | none => none
    | some c =>
      let go (next : Nat) (added : List Char) : Option (String × Nat) :=
        readTitleFrom? s inTable items stop opener closer (max (i + 1) next)
          (added.reverse ++ found)
      if c == closer then some (String.ofList found.reverse, i + 1)
      else if c == opener then none
      else if c == '\n' || c == '\r' then
        match lineResume? items i with
        | some next => go next ['\n']
        | none => go (i + 1) [c]
      else if c == '&' then
        match readReference? s i with
        | some (decoded, next) => go next decoded
        | none => go (i + 1) [c]
      else if inTable && c == '\\' && s.has (i + 1) '\\' && s.has (i + 2) '|' &&
          i + 2 < stop then
        if i + 3 < stop && s.hasKind Text.isAsciiPunctuation (i + 3) then
          go (i + 4) (s[i + 3]?).toList
        else go (i + 3) ['|']
      else if c == '\\' && s.hasKind Text.isAsciiPunctuation (i + 1) then
        go (i + 2) (s[i + 1]?).toList
      else go (i + 1) [c]
  else none
termination_by stop - i

/-- Reads the title at a position before `stop`. -/
def readTitle? (s : Source) (inTable : Bool) (items : List Item) (stop i : Nat) :
    Option (String × Nat) := do
  let opener ← s[i]?
  readTitleFrom? s inTable items stop opener (← titleCloser? opener) (i + 1) []

end IconMarkup.Markdown
