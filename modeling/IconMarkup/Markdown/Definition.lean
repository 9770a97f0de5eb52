import IconMarkup.Markdown.Destination
import IconMarkup.Markdown.HtmlTag
import IconMarkup.Markdown.Item
import IconMarkup.Markdown.Label
import IconMarkup.Markdown.Outline

/-!
# Interruptions and definitions

Which lines end a paragraph, and the definitions of link labels, which stand where a paragraph
could begin: a label in brackets, a colon, a destination and perhaps a title. A definition may go on
over lines that would not end a paragraph.
-/

namespace IconMarkup.Markdown

/-! ### Interruptions -/

/-- What reading blocks depends on. -/
structure BlockContext where
  /-- The text. -/
  source : Source
  /-- The extensions. -/
  options : Options

namespace BlockContext

/-- The place after the containers of the line at a position, and whether it goes on inside all of
them. -/
def follow (context : BlockContext) (outline : Outline) (i : Nat) : Indent × Bool :=
  let (count, place) := takeContainers context.source (.start i) outline.containers
  (place, count = outline.spine.length)

/-- Whether the mark of a list item that may end a paragraph stands here. Inside the containers of
the paragraph, text must follow on its line and its number must be one. -/
def interruptsAsItem (context : BlockContext) (i : Nat) (inside : Bool) : Bool :=
  let s := context.source
  let marked (number : Option Nat) (stop : Nat) : Bool :=
    if (s.has stop ' ' || s.has stop '\t' || (s.lineEnd? stop).isSome) then
      !inside || (number.all (· = 1) && (s.blankLine? stop).isNone)
    else false
  match s[i]? with
  | none => false
  | some c =>
    if isBullet c then marked none (i + 1)
    else
      let stop := s.skipWhile Char.isDigit i
      let digits := stop - i
      if 1 ≤ digits && digits ≤ 9 && (s.has stop '.' || s.has stop ')') then
        marked (Text.numeral? 10 (s.slice i stop)) (stop + 1)
      else false

/-- Whether the definition of a footnote begins here: its label and the position after the colon. -/
def footnoteLabel? (context : BlockContext) (i : Nat) : Option (String × Nat) :=
  let s := context.source
  if context.options.footnotes && s.hasWord i "[^" then
    match readLabel? s false (fun _ => none) (i + 2) with
    | some (stop, label) => if s.has stop ':' then some (label, stop + 1) else none
    | none => none
  else none

/-- Whether a line ends a paragraph or a table, apart from the head of a table. -/
def interruptsPlainly (context : BlockContext) (i : Nat) (inside : Bool) : Bool :=
  let s := context.source
  (s.lineEnd? i).isSome || (s.thematicBreak? i).isSome || (s.headingLevel? i).isSome ||
    (s.fence? i).isSome || s.has i '>' || context.interruptsAsItem i inside ||
    (s.has i '<' && ((s.htmlBlockCloser? (i + 1)).isSome || s.startsBlockElement (i + 1))) ||
    (context.footnoteLabel? i).isSome

/-- The number of bars of a line that no backslash escapes, the position of the last one, and the
position of the line end; `none` at the end of the text. -/
def countBars? (s : Source) (i bars lastBar : Nat) (escaped : Bool) :
    Option (Nat × Nat × Nat) :=
  if _h : i < s.size then
    match s[i]? with
    | some '\\' => countBars? s (i + 1) bars lastBar true
    | some '|' =>
      if escaped then countBars? s (i + 1) bars lastBar false
      else countBars? s (i + 1) (bars + 1) i false
    | some '\n' => some (bars, lastBar, i)
    | some '\r' => some (bars, lastBar, i)
    | _ => countBars? s (i + 1) bars lastBar false
  else none
termination_by s.size - i

/-- The columns of the delimiter row in the line at a position, if the line is inside all
containers, and the position after it. -/
def delimiterRow? (context : BlockContext) (outline : Outline) (i : Nat) : Option (Nat × Nat) :=
  let (place, inside) := context.follow outline i
  if inside then context.source.delimiterRow? place.pos else none

/-- Whether the head of a table that begins with a bar stands here. -/
def interruptsAsTable (context : BlockContext) (outline : Outline) (i : Nat) : Bool :=
  let s := context.source
  if context.options.tables && s.has i '|' then
    match countBars? s i 0 i false with
    | none => false
    | some (bars, lastBar, stop) =>
      match context.delimiterRow? outline ((s.lineEnd? stop).getD stop) with
      | some (columns, _) => columns = LineContext.headColumns s i bars lastBar
      | none => false
  else false

/-- Whether a line ends a paragraph. -/
def interrupts (context : BlockContext) (outline : Outline) (i : Nat) (inside : Bool) : Bool :=
  context.interruptsPlainly i inside || context.interruptsAsTable outline i

/-! ### Continued paragraphs -/

/-- The place where a paragraph goes on in the line at a position, if that line neither ends the
paragraph nor makes a heading of it. `lazyUnderline` tells whether an underline counts outside the
containers of the paragraph too. -/
def resume? (context : BlockContext) (outline : Outline) (lazyUnderline : Bool) (i : Nat) :
    Option Indent :=
  let s := context.source
  let (place, inside) := context.follow outline i
  match place.take s 4 with
  | (after, 0) => some after
  | (after, _) =>
    if context.interrupts outline after.pos inside ||
        ((inside || lazyUnderline) && (s.underline? after.pos).isSome) then none
    else some after

/-! ### Link definitions -/

/-- Skips white space with at most one line end inside a definition. Gives the position after it and
the number of line ends. -/
def definitionBlanks? (context : BlockContext) (outline : Outline) :
    (fuel : Nat) → (i : Nat) → (lineEnds : Nat) → Option (Nat × Nat)
  | 0, _, _ => none
  | fuel + 1, i, lineEnds =>
    let s := context.source
    let stop := s.skipBlanks i
    match s.lineEnd? stop with
    | none => some (stop, lineEnds)
    | some next =>
      if 1 ≤ lineEnds then none
      else do
        let place ← context.resume? outline true next
        definitionBlanks? context outline fuel place.pos (lineEnds + 1)

/-- Reads the title of a definition up to its closing character: the position after it, and its
characters, the last first. A title has no blank line. -/
def definitionTitleFrom? (context : BlockContext) (outline : Outline) (closer : Char) :
    (fuel : Nat) → (i : Nat) → (found : List Char) → Option (Nat × List Char)
  | 0, _, _ => none
  | fuel + 1, i, found => do
    let s := context.source
    let c ← s[i]?
    if c == '(' && closer == ')' then failure
    else if c == '\n' || c == '\r' then
      let place ← context.resume? outline true ((s.lineEnd? i).getD (i + 1))
      let place := place.skipAll s
      if (s.blankLine? place.pos).isSome then failure
      else definitionTitleFrom? context outline closer fuel place.pos ('\n' :: found)
    else if c == '\\' then
      match s[i + 1]? with
      | some d =>
        if d == '\n' || d == '\r' then
          definitionTitleFrom? context outline closer fuel (i + 1) ('\\' :: found)
        else definitionTitleFrom? context outline closer fuel (i + 2) (d :: '\\' :: found)
      | none => none
    else if c == closer then some (i + 1, found)
    else definitionTitleFrom? context outline closer fuel (i + 1) (c :: found)

/-- Reads the title of a definition: the position after it, and the title as written. -/
def definitionTitle? (context : BlockContext) (outline : Outline) (i : Nat) :
    Option (Nat × Source) := do
  let opener ← context.source[i]?
  let closer ←
    if opener == '"' || opener == '\'' then some opener
    else if opener == '(' then some ')' else none
  let (stop, found) ←
    context.definitionTitleFrom? outline closer (context.source.size + 1) (i + 1) []
  return (stop, found.reverse.toArray)

/-- Reads the definition of a link label: the label, the destination, the title, and the position
after the definition. -/
def definition? (context : BlockContext) (outline : Outline) (i : Nat) :
    Option (String × String × String × Nat) := do
  let s := context.source
  if !s.has i '[' then failure
  let resume (next : Nat) : Option Nat := (context.resume? outline false next).map (·.pos)
  let (stop, label) ← readLabel? s false resume (i + 1)
  if !s.has stop ':' then failure
  let (start, _) ← context.definitionBlanks? outline 3 (stop + 1) 0
  let (first, last, after) ← s.destination? s.size start
  if after = start then failure
  let destination := unescape false s first last
  let bare := some (label, destination, "", after)
  match context.definitionBlanks? outline 3 after 0 with
  | none => bare
  | some (next, lineEnds) =>
    let lineEnds := if after = s.size then lineEnds + 1 else lineEnds
    if next = after && lineEnds = 0 then failure
    else if 1 < lineEnds then bare
    else
      let plain := if 0 < lineEnds then bare else none
      match context.definitionTitle? outline next with
      | none => plain
      | some (stop, title) =>
        if (s.blankLine? stop).isSome then
          some (label, destination, unescape false title 0 title.size, stop)
        else plain

end BlockContext

end IconMarkup.Markdown
