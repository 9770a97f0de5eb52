import IconMarkup.Markdown.NamedReference
import IconMarkup.Markdown.Source

/-!
# Character references and backslashes in Markdown

A numeric reference has at most seven decimal or six hexadecimal digits; a code point that is zero
or no character stands for the replacement character. `unescape` decodes references and takes
backslashes off ASCII punctuation, as in link destinations, titles and info strings.
-/

namespace IconMarkup.Markdown

open IconMarkup.Text

/-- The character of a numeric reference. -/
def charOfReference (code : Nat) : Char :=
  if h : code.isValidChar then
    if code = 0 then '\ufffd' else Char.ofNatAux code h
  else '\ufffd'

/-- Reads at most `limit` digits and a semicolon. -/
def readNumber? (s : Source) (base limit i : Nat) : Option (Nat × Nat) := do
  let stop := min (s.skipWhile (fun c => (digitValue? base c).isSome) i) (i + limit)
  let code ← numeral? base (s.slice i stop)
  if s.has stop ';' then some (code, stop + 1) else none

/-- Reads the character reference at an ampersand: its characters and the position after it. -/
def readReference? (s : Source) (i : Nat) : Option (List Char × Nat) :=
  if s.has (i + 1) '#' then
    let number :=
      if s.hasKind (fun c => c == 'x' || c == 'X') (i + 2) then readNumber? s 16 6 (i + 3)
      else readNumber? s 10 7 (i + 2)
    number.map fun (code, stop) => ([charOfReference code], stop)
  else
    let stop := s.skipWhile Char.isAlphanum (i + 1)
    if s.has stop ';' then
      (NamedReference.find? (s.text (i + 1) stop)).map (·, stop + 1)
    else none

/-- Decodes from a position on. Inside a table, two backslashes before a bar are one step of
escaping deeper. -/
def unescapeFrom (inTable : Bool) (s : Source) (i : Nat) : List Char :=
  if h : i < s.size then
    if s[i] == '\\' then
      if inTable && s.has (i + 1) '\\' && s.has (i + 2) '|' then
        '|' :: unescapeFrom inTable s (i + 3)
      else if s.hasKind isAsciiPunctuation (i + 1) then
        (s[i + 1]?).toList ++ unescapeFrom inTable s (i + 2)
      else '\\' :: unescapeFrom inTable s (i + 1)
    else if s[i] == '&' then
      match readReference? s i with
      | some (decoded, stop) =>
        if i < stop then decoded ++ unescapeFrom inTable s stop
        else '&' :: unescapeFrom inTable s (i + 1)
      | none => '&' :: unescapeFrom inTable s (i + 1)
    else if s[i] == '\r' then unescapeFrom inTable s (i + 1)
    else s[i] :: unescapeFrom inTable s (i + 1)
  else []
termination_by s.size - i

/-- The text between two positions, decoded. -/
def unescape (inTable : Bool) (s : Source) (start stop : Nat) : String :=
  String.ofList (unescapeFrom inTable (s.extract start stop) 0)

end IconMarkup.Markdown
