import IconMarkup.Markdown.Options
import IconMarkup.Markdown.Reference
import IconMarkup.Text.Blank

/-!
# Items of a line

The first look at running text: a line is cut into plain text and the marks that may turn out to be
emphasis, code, links or tags. What a mark means is settled later, when the whole block is known.
Items know their place in the source, because what is skipped and what is looked ahead at is said
in positions.
-/

namespace IconMarkup.Markdown

/-! ### Items -/

/-- What an item is. -/
inductive ItemKind where
  /-- Plain text, as in the source. -/
  | text
  /-- Plain text that differs from the source. -/
  | given (content : String)
  /-- A run of `*`, `_` or `~` that may open or close emphasis. -/
  | run (mark : Char) (length : Nat) (canOpen canClose : Bool)
  /-- A run of backquotes, after a backslash or not. -/
  | backquotes (count : Nat) (escaped : Bool)
  /-- A `<` that may begin a tag or an autolink. -/
  | lessThan
  /-- A `[` that may begin a link. -/
  | openLink
  /-- A `![` that may begin an image. -/
  | openImage
  /-- A `]`; it may end the label of a reference unless that was tried before. -/
  | closeBracket (mayRefer : Bool)
  /-- A line end. -/
  | softBreak
  /-- A line end that shows. -/
  | hardBreak (backslash : Bool)
  /-- The check box of a task. -/
  | checkBox (checked : Bool)
  deriving DecidableEq, Repr

/-- Whether the meaning of an item depends on the items around it. -/
def ItemKind.isMark : ItemKind → Bool
  | .run .. | .backquotes .. | .lessThan | .openLink | .openImage | .closeBracket _ => true
  | _ => false

/-- A piece of a line. -/
structure Item where
  /-- Where it begins. -/
  start : Nat
  /-- Where it ends. The last item of a heading may end after the marks that it consists of; if they
  turn out to be text, what follows them is text too. -/
  stop : Nat
  /-- What it is. -/
  kind : ItemKind
  deriving DecidableEq, Repr

/-! ### Lines -/

/-- How a line is read. -/
inductive LineMode where
  /-- As running text. -/
  | plain
  /-- As running text that may be the head of a table. -/
  | tableHead
  /-- As the cell of a table, which a bar ends. -/
  | cell
  deriving DecidableEq, Repr

/-- How a line ends. -/
inductive LineEnding where
  /-- The block or the cell ends with it. -/
  | final
  /-- With a break before the next line. -/
  | goesOn (lineBreak : Item)
  /-- It is the head of a table with this many columns; its body begins at `body`. -/
  | table (columns body : Nat)
  deriving DecidableEq, Repr

/-- What reading a line is about. -/
structure LineContext where
  /-- The text. -/
  source : Source
  /-- The extensions. -/
  options : Options
  /-- Where the line begins. -/
  start : Nat
  /-- Where reading stops at the latest. -/
  stop : Nat
  /-- How the line is read. -/
  mode : LineMode
  /-- The columns of the delimiter row in the line at a position, and the position after it. -/
  delimiterRow? : Nat → Option (Nat × Nat)

/-! ### Scans -/

/-- What reading a line has found so far. -/
structure LineScan where
  /-- The items before `mark`. -/
  items : Array Item
  /-- The beginning of text that is not yet an item. -/
  mark : Nat
  /-- The number of bars. -/
  bars : Nat
  /-- The position of the last bar. -/
  lastBar : Nat

namespace LineScan

/-- Makes an item of the text before a position. -/
def flush (scan : LineScan) (stop : Nat) : LineScan :=
  if scan.mark < stop then
    { scan with items := scan.items.push ⟨scan.mark, stop, .text⟩, mark := stop }
  else scan

/-- Adds an item after the text before it. -/
def add (scan : LineScan) (item : Item) : LineScan :=
  let flushed := scan.flush item.start
  { flushed with items := flushed.items.push item, mark := item.stop }

end LineScan

/-- What reading a line gives. -/
structure LineResult where
  /-- The items of the line. -/
  items : Array Item
  /-- The position after the line. -/
  next : Nat
  /-- How the line ends. -/
  ending : LineEnding

/-! ### Flanking -/

namespace LineContext

/-- Whether a bar that no backslash escapes stands just before a position. -/
def afterBar (line : LineContext) (i : Nat) : Bool :=
  line.start < i && line.source.has (i - 1) '|' &&
    !(line.start < i - 1 && line.source.has (i - 2) '\\')

/-- Whether marks of this kind may stand inside a word. -/
def mayBeIntraword (mark : Char) (length : Nat) : Bool :=
  mark == '*' || (mark == '~' && 1 < length)

/-- Whether two backslashes before a bar stand at a position of a cell: there they belong to the bar
and not to each other. -/
def escapesBar (line : LineContext) (i : Nat) : Bool :=
  line.mode == .cell && line.source.has (i + 1) '\\' && line.source.has (i + 2) '|'

/-- Whether a run of marks may open emphasis. -/
def canOpen (line : LineContext) (mark : Char) (i length : Nat) : Bool :=
  match line.source[i + length]? with
  | none => false
  | some next =>
    if Text.isBlank next then false
    else if i ≤ line.start then true
    else if line.mode = .cell && line.afterBar i then true
    else if line.mode = .cell && next == '|' then false
    else if mark == '*' && !Text.isPunctuation next then true
    else if mark == '~' && 1 < length then true
    else
      match line.source[i - 1]? with
      | none => true
      | some previous =>
        (mark == '~' && previous == '~' && !Text.isPunctuation next) ||
          Text.isBlank previous || Text.isPunctuation previous

/-- Whether a run of marks may close emphasis. -/
def canClose (line : LineContext) (mark : Char) (i length : Nat) : Bool :=
  if i ≤ line.start then false
  else match line.source[i - 1]? with
  | none => false
  | some previous =>
    if Text.isBlank previous then false
    else match line.source[i + length]? with
    | none => true
    | some next =>
      if line.mode = .cell && line.afterBar i then false
      else if line.mode = .cell && next == '|' then true
      else if mayBeIntraword mark length && !Text.isPunctuation previous then true
      else if mark == '~' && previous == '~' then true
      else Text.isBlank next || Text.isPunctuation next

/-! ### Ends of lines -/

/-- The number of columns of a head row, from its bars: the outer bars are no separators. -/
def headColumns (s : Source) (start bars lastBar : Nat) : Nat :=
  let inner := if s.has (s.skipBlanks start) '|' then bars - 1 else bars
  if (s.blankLine? (lastBar + 1)).isSome then inner else inner + 1

/-- Ends a line at a line end, where `next` is the position after it. The blanks before the line end
count even where they come before the beginning of the line, as its indentation. -/
def finishLine (line : LineContext) (scan : LineScan) (i next : Nat) : LineResult :=
  let s := line.source
  let backslashes := i - s.backWhile (· == '\\') line.start i
  let blankFrom := s.backWhile isLineBlank 0 i
  if line.mode = .cell then ⟨(scan.flush blankFrom).items, i, .final⟩
  else if backslashes % 2 = 1 && next < line.stop then
    ⟨(scan.flush (i - 1)).items, next, .goesOn ⟨i - 1, next, .hardBreak true⟩⟩
  else
    let table := if line.mode = .tableHead && 0 < scan.bars then line.delimiterRow? next else none
    match table with
    | some (columns, body) =>
      if columns = headColumns s line.start scan.bars scan.lastBar then
        ⟨scan.items, body, .table columns body⟩
      else finishText scan i next blankFrom
    | none => finishText scan i next blankFrom
where
  /-- Ends a line of text; two blanks before the line end make it show. -/
  finishText (scan : LineScan) (i next blankFrom : Nat) : LineResult :=
    if 2 ≤ i - blankFrom then
      ⟨(scan.flush blankFrom).items, next, .goesOn ⟨blankFrom, next, .hardBreak false⟩⟩
    else ⟨(scan.flush blankFrom).items, next, .goesOn ⟨i, next, .softBreak⟩⟩

/-- Ends a line that no line end ends. -/
def finishOpen (line : LineContext) (scan : LineScan) (i : Nat) : LineResult :=
  let blankFrom := line.source.backWhile isLineBlank scan.mark i
  ⟨(scan.flush blankFrom).items, i, .final⟩

/-! ### Items of a line -/

/-- The item that begins at a position, if one does, or how far plain text goes on. -/
def itemAt? (line : LineContext) (c : Char) (i : Nat) : Option Item :=
  let s := line.source
  match c with
  | '*' | '_' | '~' =>
    let length := s.runLength c i
    let opens := line.canOpen c i length
    let closes := line.canClose c i length
    let known := c != '~' || (line.options.strikethrough && length ≤ 2)
    if known && (opens || closes) then some ⟨i, i + length, .run c length opens closes⟩ else none
  | '`' =>
    let count := s.runLength c i
    some ⟨i, i + count, .backquotes count false⟩
  | '<' => if s.has (i + 1) '\\' then none else some ⟨i, i + 1, .lessThan⟩
  | '!' => if s.has (i + 1) '[' then some ⟨i, i + 2, .openImage⟩ else none
  | '[' => some ⟨i, i + 1, .openLink⟩
  | ']' => some ⟨i, i + 1, .closeBracket true⟩
  | '&' => (readReference? s i).map fun (content, stop) =>
      ⟨i, stop, .given (String.ofList content)⟩
  | _ => none

/-- Where plain text goes on after a character that begins no item: runs of marks are passed as a
whole. -/
def passed (line : LineContext) (c : Char) (i : Nat) : Nat :=
  if c == '*' || c == '_' || (c == '~' && line.options.strikethrough) then
    i + line.source.runLength c i
  else i + 1

/-- Reads a line from a position on. -/
def readFrom (line : LineContext) (scan : LineScan) (i : Nat) : LineResult :=
  if _h : i < line.stop then
    match line.source[i]? with
    | none => line.finishOpen scan i
    | some c =>
      if c == '\n' || c == '\r' then
        let next := min line.stop ((line.source.lineEnd? i).getD (i + 1))
        line.finishLine scan i next
      else if c == '\\' && i + 1 < line.stop &&
          line.source.hasKind Text.isAsciiPunctuation (i + 1) then
        let before := { scan.flush i with mark := i + 1 }
        if line.source.has (i + 1) '`' then
          let count := line.source.runLength '`' (i + 1)
          let item : Item := ⟨i + 1, i + 1 + count, .backquotes count true⟩
          readFrom line (before.add item) (i + 1 + count)
        else if line.escapesBar i then readFrom line { before with mark := i + 2 } (i + 2)
        else readFrom line before (i + 2)
      else if c == '|' && !(0 < i && line.source.has (i - 1) '\\') then
        if line.mode = .cell then line.finishOpen scan i
        else readFrom line { scan with bars := scan.bars + 1, lastBar := i } (i + 1)
      else match line.itemAt? c i with
        | some item => readFrom line (scan.add item) (max (i + 1) item.stop)
        | none => readFrom line scan (max (i + 1) (line.passed c i))
  else line.finishOpen scan i
termination_by line.stop - i

/-- Reads a line. -/
def read (line : LineContext) : LineResult :=
  line.readFrom ⟨#[], line.start, 0, line.start⟩ line.start

end LineContext

end IconMarkup.Markdown
