import IconMarkup.Markdown.Container
import IconMarkup.Text.CaseFold

/-!
# Labels

The labels of link references and footnotes: text in brackets without further brackets, in which a
run of white space counts as one space. Two labels are the same if they differ only in case.
-/

namespace IconMarkup.Markdown

/-- The weight that a label stays below. -/
def labelLimit : Nat := 1000

/-- What a character adds to the weight of a label: the bytes of its encoding outside ASCII. Escaped
characters and white space weigh too; plain ASCII characters do not. -/
def labelWeight (c : Char) : Nat :=
  if c.utf8Size = 1 then 0 else c.utf8Size

/-- What reading a label has found so far. -/
structure LabelScan where
  /-- The next position. -/
  pos : Nat
  /-- The characters of the label, the last first. -/
  found : List Char
  /-- The weight of what was read. -/
  weight : Nat
  /-- Whether all of them are white space. -/
  blank : Bool

/-- Reads a run of white space with at most one line end. `resume` says where the next line goes
on, if it may. Gives the position after the run and whether it is anything but a single space. -/
def readLabelBlanks? (s : Source) (resume : Nat → Option Nat) :
    (fuel : Nat) → (i : Nat) → (lineEnds width : Nat) → Option (Nat × Bool)
  | 0, _, _, _ => none
  | fuel + 1, i, lineEnds, width =>
    if s.hasKind isMarkdownBlank i then
      match s.lineEnd? i with
      | some next =>
        if 1 ≤ lineEnds then none
        else do readLabelBlanks? s resume fuel (← resume next) (lineEnds + 1) (width + 2)
      | none => readLabelBlanks? s resume fuel (i + 1) lineEnds
          (width + if s.has i ' ' then 1 else 2)
    else some (i, 1 < width)

/-- The label that was found, without white space at its ends. -/
def LabelScan.label (scan : LabelScan) : String :=
  String.ofList ((scan.found.dropWhile isMarkdownBlank).reverse.dropWhile isMarkdownBlank)

/-- Reads a label up to its closing bracket: the position after the bracket, and the label. In a
table, the last one of the backslashes before a bar belongs to the table. -/
def readLabelFrom? (s : Source) (inTable : Bool) (resume : Nat → Option Nat) :
    (fuel : Nat) → LabelScan → Option (Nat × String)
  | 0, _ => none
  | fuel + 1, scan => do
    if labelLimit ≤ scan.weight then failure
    let c ← s[scan.pos]?
    let next (width weight : Nat) (added : List Char) : LabelScan :=
      ⟨scan.pos + width, added.reverse ++ scan.found, scan.weight + weight, false⟩
    if c == '[' then failure
    else if c == ']' then if scan.blank then failure else some (scan.pos + 1, scan.label)
    else if inTable && c == '\\' && s.has (scan.pos + 1) '|' then
      readLabelFrom? s inTable resume fuel (next 2 2 ['|'])
    else if inTable && c == '|' && scan.found.head? = some '\\' then
      readLabelFrom? s inTable resume fuel { next 1 1 [] with found := '|' :: scan.found.tail }
    else if c == '\\' && s.hasKind Text.isAsciiPunctuation (scan.pos + 1) then
      readLabelFrom? s inTable resume fuel (next 2 2 (c :: (s[scan.pos + 1]?).toList))
    else if isMarkdownBlank c then
      let (stop, replaced) ← readLabelBlanks? s resume fuel scan.pos 0 0
      let run := if replaced then [' '] else s.slice scan.pos stop
      readLabelFrom? s inTable resume fuel
        ⟨stop, run.reverse ++ scan.found, scan.weight + (stop - scan.pos), scan.blank⟩
    else readLabelFrom? s inTable resume fuel (next 1 (labelWeight c) [c])

/-- Reads the label whose opening bracket stands just before a position. -/
def readLabel? (s : Source) (inTable : Bool) (resume : Nat → Option Nat) (i : Nat) :
    Option (Nat × String) :=
  readLabelFrom? s inTable resume (s.size + 1) ⟨i, [], 0, true⟩

/-- What labels that name the same thing have in common. -/
def labelKey (label : String) : List Char :=
  Text.foldCase label.toList

end IconMarkup.Markdown
