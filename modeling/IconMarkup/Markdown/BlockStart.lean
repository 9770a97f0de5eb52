import IconMarkup.Markdown.Indent

/-!
# Beginnings of blocks

What a line is by its first characters: a thematic break, a heading, a code fence, an HTML block,
a list item, the row of hyphens under the head of a table.
-/

namespace IconMarkup.Markdown

/-! ### Breaks, headings and fences -/

namespace Source

/-- Reads the rest of a thematic break of which `count` marks were seen. -/
def thematicBreakRest? (s : Source) (mark : Char) (count i : Nat) : Option Nat :=
  if h : i < s.size then
    if s[i] == '\n' || s[i] == '\r' then if 3 ≤ count then s.lineEnd? i else none
    else if s[i] == mark then thematicBreakRest? s mark (count + 1) (i + 1)
    else if s[i] == ' ' || s[i] == '\t' then thematicBreakRest? s mark count (i + 1)
    else none
  else if 3 ≤ count then some i else none
termination_by s.size - i

/-- The position after a thematic break: three or more `*`, `-` or `_`. -/
def thematicBreak? (s : Source) (i : Nat) : Option Nat := do
  let mark ← s[i]?
  if mark == '*' || mark == '-' || mark == '_' then s.thematicBreakRest? mark 0 i else none

/-- The level of a heading that begins with number signs. -/
def headingLevel? (s : Source) (i : Nat) : Option Nat :=
  let level := s.runLength '#' i
  if 1 ≤ level ∧ level ≤ 6 ∧ (s[i + level]?.all isMarkdownBlank) then some level else none

/-- The level of a heading that this line underlines, and the position after the line. -/
def underline? (s : Source) (i : Nat) : Option (Nat × Nat) := do
  let mark ← s[i]?
  let level ← if mark == '=' then some 1 else if mark == '-' then some 2 else none
  return (level, ← s.blankLine? (i + s.runLength mark i))

/-- The character and the length of a code fence. -/
def fence? (s : Source) (i : Nat) : Option (Char × Nat) := do
  let mark ← s[i]?
  let length := s.runLength mark i
  if (mark == '`' || mark == '~') && 3 ≤ length then
    let stop := s.skipWhile (fun c => c != '\n' && c != '`') (i + length)
    if mark == '`' && s.has stop '`' then none else some (mark, length)
  else none

/-- The position after the fence that closes a code block; the end of the text closes it too. -/
def closingFence? (s : Source) (mark : Char) (length i : Nat) : Option Nat :=
  if s.size ≤ i then some i
  else
    let found := s.runLength mark i
    let stop := s.skipWhile (· == ' ') (i + found)
    if length ≤ found && (s.lineEnd? stop).isSome then some stop else none

/-! ### HTML blocks -/

/-- Elements whose body is taken as it is, with their end tags. -/
def literalElements : List (String × String) :=
  [("pre", "</pre>"), ("style", "</style>"), ("script", "</script>"),
    ("textarea", "</textarea>")]

/-- Openings of HTML blocks that a fixed text closes. -/
def literalOpenings : List (String × String) :=
  [("!--", "-->"), ("?", "?>"), ("![CDATA[", "]]>")]

/-- The text that closes an HTML block of the kinds that run up to a fixed text. The position is
that after the `<`. -/
def htmlBlockCloser? (s : Source) (i : Nat) : Option String :=
  let element := literalElements.find? fun (name, _) =>
    s.hasWordInAnyCase i name &&
      s[i + name.length]?.all fun c => isMarkdownBlank c || c == '>'
  let opening := literalOpenings.find? fun (word, _) => s.hasWord i word
  match element, opening with
  | some (_, closer), _ => some closer
  | none, some (_, closer) => some closer
  | none, none => if s.has i '!' && s.hasKind Char.isAlpha (i + 1) then some ">" else none

/-- The elements that begin an HTML block wherever they stand. -/
def blockElements : List String :=
  ["address", "article", "aside", "base", "basefont", "blockquote", "body", "caption", "center",
    "col", "colgroup", "dd", "details", "dialog", "dir", "div", "dl", "dt", "fieldset",
    "figcaption", "figure", "footer", "form", "frame", "frameset", "h1", "h2", "h3", "h4", "h5",
    "h6", "head", "header", "hr", "html", "iframe", "legend", "li", "link", "main", "menu",
    "menuitem", "nav", "noframes", "ol", "optgroup", "option", "p", "param", "search", "section",
    "summary", "table", "tbody", "td", "tfoot", "th", "thead", "title", "tr", "track", "ul"]

/-- Whether a tag of a block element begins here. The position is that after the `<`. -/
def startsBlockElement (s : Source) (i : Nat) : Bool :=
  let start := if s.has i '/' then i + 1 else i
  let stop := s.skipWhile Char.isAlphanum start
  blockElements.contains (s.text start stop).toLower &&
    (match s[stop]? with
      | none => true
      | some c => c == ' ' || c == '\t' || c == '\r' || c == '\n' || c == '>' ||
        (c == '/' && s.has (stop + 1) '>'))

/-! ### Tables -/

/-- The number of columns that a row of hyphens describes, and the position after the row. The row
has a hyphen and a bar, and each column that a bar ends has a hyphen. -/
def delimiterRow? (s : Source) (i : Nat) : Option (Nat × Nat) :=
  let place := (Indent.start i).take s 4
  if place.2 = 0 then none
  else
    let first := place.1.pos
    if s.has first '|' then go (first + 1) 0 true false false true
    else if first < s.size then go first 0 true false false false
    else none
where
  /-- `fresh`: nothing but blanks in this column; `hyphen`: a hyphen in this column;
  `anyHyphen`, `anyBar`: in the row. -/
  go (i columns : Nat) (fresh hyphen anyHyphen anyBar : Bool) : Option (Nat × Nat) :=
    match h : s[i]? with
    | none => finish i columns fresh anyHyphen anyBar
    | some c =>
      have : i < s.size := (Array.getElem?_eq_some_iff.1 h).1
      if c == '\n' || c == '\r' then
        finish ((s.lineEnd? i).getD i) columns fresh anyHyphen anyBar
      else if c == ' ' then go (i + 1) columns fresh hyphen anyHyphen anyBar
      else if c == ':' then go (i + 1) columns false hyphen anyHyphen anyBar
      else if c == '-' then go (i + 1) columns false true true anyBar
      else if c == '|' then
        if hyphen then go (i + 1) (columns + 1) true false anyHyphen true else none
      else none
  termination_by s.size - i
  /-- Closes the last column. -/
  finish (i columns : Nat) (fresh anyHyphen anyBar : Bool) : Option (Nat × Nat) :=
    let total := if fresh then columns else columns + 1
    if anyBar && anyHyphen then some (total, i) else none

end Source

/-! ### List marks -/

/-- The mark of a list item: its kind (`-`, `+`, `*`, or `.` or `)` after a number), its number,
how many columns the content is indented by, and the place after the mark. -/
structure ListMark where
  /-- The character that tells lists apart. -/
  kind : Char
  /-- The number of the item, 0 if it has none. -/
  number : Nat
  /-- The columns that the content of the item is indented by. -/
  width : Nat
  /-- The place after the mark. -/
  after : Indent

/-- Whether a mark belongs to a list without numbers. -/
def isBullet (c : Char) : Bool :=
  c == '-' || c == '+' || c == '*'

namespace Indent

/-- Takes the space after the mark of a list item: up to four columns count as indentation of the
content, more of them make the content an indented code block. -/
def finishMark (s : Source) (kind : Char) (number width : Nat) (place : Indent) : ListMark :=
  if (s.blankLine? place.pos).isSome then ⟨kind, number, width, place⟩
  else
    match place.take s 4 with
    | (_, 0) => ⟨kind, number, width, place⟩
    | (after, missing) => ⟨kind, number, width + (4 - missing), after⟩

/-- Takes the mark of a list item, whose line is indented by `outer` columns. -/
def takeListMark? (s : Source) (outer : Nat) (place : Indent) : Option ListMark := do
  let c ← s[place.pos]?
  let afterMark (i : Nat) : Option Indent :=
    let here := { place with pos := i }
    match here.take s 1 with
    | (after, 0) => some after
    | _ => if here.atLineEnd s then some here else none
  if isBullet c then
    if (s.thematicBreak? place.pos).isSome then none
    else return finishMark s c 0 (outer + 2) (← afterMark (place.pos + 1))
  else
    let stop := s.skipWhile Char.isDigit place.pos
    let digits := stop - place.pos
    let kind ← s[stop]?
    if 1 ≤ digits && digits ≤ 9 && (kind == '.' || kind == ')') then
      let number := (Text.numeral? 10 (s.slice place.pos stop)).getD 0
      return finishMark s kind number (outer + digits + 2) (← afterMark (stop + 1))
    else none

/-- Takes the check box of a task: whether it is checked, and the place after it. -/
def takeCheckBox? (s : Source) (place : Indent) : Option (Bool × Indent) := do
  let place := place.takeUpTo s 3
  let inside ← s[place.pos + 1]?
  let checked := inside == 'x' || inside == 'X'
  if s.has place.pos '[' && (checked || isLineBlank inside) && s.has (place.pos + 2) ']' &&
      s.hasKind isMarkdownBlank (place.pos + 3) then
    some (checked, { place with pos := place.pos + 3 })
  else none

end Indent

end IconMarkup.Markdown
