import IconMarkup.Markdown.Definition
import IconMarkup.Markdown.Events
import IconMarkup.Markdown.HeadingAttributes

/-!
# Reading blocks

The lines of a text, block by block. Each step looks at one line: it closes the containers that the
line does not go on inside, opens those that it begins, and reads the block that follows with as
many further lines as belong to it.
-/

namespace IconMarkup.Markdown

/-! ### HTML blocks -/

/-- A number of spaces. -/
def spaces (n : Nat) : List Char := List.replicate n ' '

namespace BlockContext

/-- Whether a carriage return and one more byte stand before the end of a line. -/
def hasReturn (context : BlockContext) (stop : Nat) : Bool :=
  2 ≤ stop && context.source.has (stop - 2) '\r' &&
    context.source.hasKind (·.utf8Size = 1) (stop - 1)

/-- The content of a line up to `stop`, without the carriage return of its end. -/
def lineContent (context : BlockContext) (start stop : Nat) : List Char :=
  let s := context.source
  if context.hasReturn stop then s.slice start (stop - 2) ++ s.slice (stop - 1) stop
  else s.slice start stop

/-- The pieces of a line of an HTML block that is indented by `width` columns. -/
def htmlPieces (context : BlockContext) (width start stop : Nat) : List HtmlPiece :=
  let s := context.source
  let indentation : List HtmlPiece :=
    if width = 0 then [] else [.indentation (String.ofList (spaces width))]
  if context.hasReturn stop then
    indentation ++ [.markup (s.text start (stop - 2)), .markup (s.text (stop - 1) stop)]
  else indentation ++ [.markup (s.text start stop)]

/-- Reads an HTML block that a fixed text closes: its pieces and the position after it. -/
def literalHtml (context : BlockContext) (outline : Outline) (closer : String) :
    (fuel : Nat) → (i width : Nat) → List HtmlPiece × Nat
  | 0, i, _ => ([], i)
  | fuel + 1, i, width =>
    let s := context.source
    let next := s.nextLine i
    let pieces := context.htmlPieces width i next
    let (place, inside) := context.follow outline next
    if !inside || (s.findWord? closer i next).isSome || place.pos = s.size then (pieces, next)
    else
      let (more, stop) := literalHtml context outline closer fuel place.pos place.spare
      (pieces ++ more, stop)

/-- Reads an HTML block that a blank line closes: its pieces and the position after it. -/
def openHtml (context : BlockContext) (outline : Outline) :
    (fuel : Nat) → (i width : Nat) → List HtmlPiece × Nat
  | 0, i, _ => ([], i)
  | fuel + 1, i, width =>
    let s := context.source
    let next := s.nextLine i
    let pieces := context.htmlPieces width i next
    let (place, inside) := context.follow outline next
    if !inside || (s.blankLine? place.pos).isSome then (pieces, next)
    else
      let (more, stop) := openHtml context outline fuel place.pos place.spare
      (pieces ++ more, stop)

/-! ### Code blocks -/

/-- Reads the lines of an indented code block, each with whether it is blank, the position after
them, and whether the last line is blank. -/
def indentedLines (context : BlockContext) (outline : Outline) :
    (fuel : Nat) → (i width : Nat) → (blank : Bool) → List (List Char × Bool) × Nat × Bool
  | 0, i, _, blank => ([], i, blank)
  | fuel + 1, i, width, blank =>
    let s := context.source
    let next := s.nextLine i
    let line := (spaces width ++ context.lineContent i next, blank)
    let (place, inside) := context.follow outline next
    let (after, missing) := place.take s 4
    if !inside || (missing ≠ 0 && !after.atLineEnd s) || after.pos = s.size then
      ([line], next, blank)
    else
      let (more, rest) := indentedLines context outline fuel after.pos after.spare
        (s.blankLine? after.pos).isSome
      (line :: more, rest)

/-- Reads an indented code block. Blank lines at its end do not belong to it. -/
def indentedCode (context : BlockContext) (outline : Outline) (i width : Nat) : Outline × Nat :=
  let (lines, next, blank) :=
    context.indentedLines outline (context.source.size + 1) i width false
  let kept := (lines.reverse.dropWhile (·.2)).reverse
  let content := kept.flatMap (·.1)
  ({ outline.add (.code none (String.ofList content)) with afterBlank := blank }, next)

/-- Reads the lines of a fenced code block, whose opening fence is indented by `indent` columns:
their content and the position after the block. -/
def fencedLines (context : BlockContext) (outline : Outline) (mark : Char) (length indent : Nat) :
    (fuel : Nat) → (i : Nat) → List Char × Nat
  | 0, i => ([], i)
  | fuel + 1, i =>
    let s := context.source
    let (place, inside) := context.follow outline i
    if !inside then ([], i)
    else
      let place := place.takeUpTo s indent
      let closing :=
        match place.take s (4 - indent) with
        | (_, 0) => none
        | (after, _) => s.closingFence? mark length after.pos
      match closing with
      | some stop => ([], (s.blankLine? stop).getD stop)
      | none =>
        let next := s.nextLine place.pos
        let (more, stop) := fencedLines context outline mark length indent fuel next
        (spaces place.spare ++ context.lineContent place.pos next ++ more, stop)

/-- Reads a fenced code block. -/
def fencedCode (context : BlockContext) (outline : Outline) (mark : Char)
    (length indent i : Nat) : Outline × Nat :=
  let s := context.source
  let start := s.skipBlanks (i + length)
  let next := s.nextLine start
  let stop := s.backWhile isMarkdownBlank start next
  let info := unescape false s start stop
  let (content, after) :=
    context.fencedLines outline mark length indent (s.size + 2) next
  (outline.add (.code (some info) (String.ofList content)), after)

/-! ### Headings -/

/-- The line at a position as running text. -/
def lineContext (context : BlockContext) (outline : Outline) (mode : LineMode) (start stop : Nat) :
    LineContext := {
  source := context.source
  options := context.options
  start
  stop
  mode
  delimiterRow? := context.delimiterRow? outline }

/-- Where the text of a heading ends: without blanks at its end and without the number signs that
close the heading. Positions count from the beginning of the text. -/
def headingEnd (text : List Char) : Nat :=
  let isEnd (c : Char) : Bool := c == '\n' || c == '\r' || c == ' '
  let trimmed := text.reverse.dropWhile isEnd
  let opened := trimmed.dropWhile (· == '#')
  if opened.isEmpty then 0
  else
    let bare := opened.dropWhile (· == ' ')
    if bare.length < opened.length then bare.length else trimmed.length

/-- Reads a heading that begins with number signs. -/
def numberHeading (context : BlockContext) (outline : Outline) (level i : Nat) : Outline × Nat :=
  let s := context.source
  match s.lineEnd? (i + level) with
  | some next => (outline.add (.heading level none ⟨[], next⟩), next)
  | none =>
    let start := s.skipBlanks (i + level)
    let lineStop := s.nextLine start
    let cut := if context.options.headingAttributes then cutAttributes? s start lineStop else none
    let bounded := context.options.headingAttributes
    let contentStop := (cut.map (·.1)).getD lineStop
    let line := context.lineContext outline .plain start (if bounded then contentStop else s.size)
    let result := line.read
    let items := match result.ending with
      | .goesOn ⟨first, last, .hardBreak true⟩ =>
        if bounded then result.items else result.items.push ⟨first, last, .text⟩
      | _ => result.items
    let stop := if bounded then lineStop else result.next
    let contentStop := if bounded then contentStop else result.next
    let limit := headingEnd (s.slice start contentStop)
    let items := endLast (start + limit) items.toList
    (outline.add (.heading level (cut.bind (·.2)) ⟨items, stop⟩), stop)

/-- Adds the heading that an underline makes of a paragraph. Its text ends before the attributes,
and before the blanks in front of them unless a backslash follows. -/
def underlinedHeading (context : BlockContext) (outline : Outline) (level start stop : Nat)
    (items : List Item) (backslash : List Item) : Outline :=
  let s := context.source
  let last := (items.getLast?.map (·.stop)).getD start
  let cut := if context.options.headingAttributes then cutAttributes? s start last else none
  let contentStop := (cut.map (·.1)).getD last
  let textStop :=
    if backslash.isEmpty then s.backWhile isLineBlank start contentStop else contentStop
  let (kept, after) := if cut.isSome then cutItems s textStop items else (items, [])
  let added := if backslash.isEmpty then after else backslash
  outline.add (.heading level (cut.bind (·.2)) ⟨endLast textStop kept ++ added, stop⟩)

/-! ### Tables -/

/-- Reads the cells of a row: the cells and the position after the row. -/
def rowCells (context : BlockContext) (outline : Outline) :
    (fuel : Nat) → (i : Nat) → List Running × Nat
  | 0, i => ([], i)
  | fuel + 1, i =>
    let s := context.source
    let start := s.skipBlanks (if s.has i '|' then i + 1 else i)
    match s.lineEnd? start with
    | some next => ([], next)
    | none =>
      let result := (context.lineContext outline .cell start s.size).read
      let (more, stop) := rowCells context outline fuel result.next
      (⟨result.items.toList, result.next⟩ :: more, stop)

/-- As many cells as a table has columns. -/
def fitRow (columns stop : Nat) (cells : List Running) : List Running :=
  cells.take columns ++ List.replicate (columns - cells.length) ⟨[], stop⟩

/-- Reads the rows of a table after its delimiter row: the rows and the position after them. -/
def tableRows (context : BlockContext) (outline : Outline) (columns : Nat) :
    (fuel : Nat) → (i : Nat) → List (List Running) × Nat
  | 0, i => ([], i)
  | fuel + 1, i =>
    let s := context.source
    let (place, inside) := context.follow outline i
    let start := (place.skipAll s).pos
    if !inside || context.interruptsPlainly start false then ([], i)
    else
      match context.rowCells outline (s.size + 1) start with
      | ([], _) => ([], i)
      | (cells, next) =>
        let (more, stop) := tableRows context outline columns fuel next
        (fitRow columns next cells :: more, stop)

/-- Reads a table whose head begins at `head` and whose rows begin at `body`. -/
def table (context : BlockContext) (outline : Outline) (columns head body : Nat) :
    Outline × Nat :=
  let (cells, headStop) := context.rowCells outline (context.source.size + 1) head
  let (rows, stop) := context.tableRows outline columns (context.source.size + 1) body
  (outline.add (.table (fitRow columns headStop cells) rows), stop)

/-! ### Paragraphs -/

/-- Reads a paragraph that begins at `start`, from the line at `i` on, after items of its earlier
lines. It may turn out to be a heading or a table. -/
def paragraphFrom (context : BlockContext) (outline : Outline) (start : Nat) :
    (fuel : Nat) → (i : Nat) → (items : Array Item) → Outline × Nat
  | 0, i, _ => (outline, i)
  | fuel + 1, i, items =>
    let s := context.source
    let mode := if context.options.tables && i = start then .tableHead else .plain
    let result := (context.lineContext outline mode i s.size).read
    match result.ending with
    | .table columns body => context.table outline columns i body
    | ending =>
      let items := items ++ result.items
      let next := result.next
      let (lineBreak, backslash) : List Item × List Item := match ending with
        | .goesOn ⟨first, last, .hardBreak true⟩ =>
          ([⟨first, last, .hardBreak true⟩], [⟨first, first + 1, .text⟩])
        | .goesOn item => ([item], [])
        | _ => ([], [])
      let ended := (outline.add (.paragraph ⟨items.toList ++ backslash, next⟩), next)
      let (place, inside) := context.follow outline next
      let (after, missing) := place.take s 4
      let underline := if missing ≠ 0 && inside then s.underline? after.pos else none
      match underline with
      | some (level, stop) =>
        (context.underlinedHeading outline level start stop items.toList backslash, stop)
      | none =>
        if missing ≠ 0 && context.interrupts outline after.pos inside then ended
        else
          let after := after.skipAll s
          if after.atLineEnd s then ended
          else context.paragraphFrom outline start fuel after.pos (items ++ lineBreak)

/-- Reads a paragraph, perhaps after the check box of a task. -/
def paragraph (context : BlockContext) (outline : Outline) (i : Nat) (checkBox : List Item) :
    Outline × Nat :=
  context.paragraphFrom outline i (context.source.size + 2) i checkBox.toArray

/-- Reads the definitions of link labels and the paragraph after them. The line after a definition
belongs to them if it would not end a paragraph. -/
def definitionsAndParagraph (context : BlockContext) :
    (fuel : Nat) → Outline → (i : Nat) → Outline × Nat
  | 0, outline, i => (outline, i)
  | fuel + 1, outline, i =>
    let s := context.source
    match context.definition? outline i with
    | none => context.paragraph outline i []
    | some (label, destination, title, stop) =>
      let outline := outline.define label destination title
      match s.blankLine? stop with
      | none => (outline, stop)
      | some next =>
        let (place, inside) := context.follow outline next
        let (after, missing) := place.take s 4
        let after := after.skipAll s
        if (s.blankLine? after.pos).isSome ||
            (missing ≠ 0 && context.interrupts outline after.pos inside) then
          (outline, next)
        else definitionsAndParagraph context fuel outline after.pos

/-! ### Containers -/

/-- Where opening containers has come to. -/
inductive Opening where
  /-- The line is used up, or a paragraph was read; the next line is at `next`. -/
  | done (outline : Outline) (next : Nat)
  /-- A block follows at a place. -/
  | block (outline : Outline) (place : Indent)

/-- Opens the item of a list. -/
def openItem (context : BlockContext) (outline : Outline) (mark : ListMark) : Opening :=
  let s := context.source
  let outline := outline.continueList mark.kind mark.number
  let outline := outline.opened { container := .item mark.width }
  match s.blankLine? mark.after.pos with
  | some next => .done { outline with atBareMark := true } next
  | none =>
    match if context.options.taskLists then mark.after.takeCheckBox? s else none with
    | none => .block outline mark.after
    | some (checked, place) =>
      match s.blankLine? place.pos with
      | some next => .done { outline.add (.checkBox checked) with atBareMark := true } next
      | none =>
        let start := (place.skipAll s).pos
        let box : Item := ⟨mark.after.pos, place.pos, .checkBox checked⟩
        let (outline, next) := context.paragraph outline start [box]
        .done outline next

/-- Opens the containers that a line begins. -/
def openContainers (context : BlockContext) :
    (fuel : Nat) → Outline → Indent → Opening
  | 0, outline, place => .block outline place
  | fuel + 1, outline, place =>
    let s := context.source
    match place.take s 4 with
    | (_, 0) => .block outline place
    | (after, missing) =>
      match context.footnoteLabel? after.pos with
      | some (label, stop) =>
        openContainers context fuel (outline.openFootnote label) (.start (s.skipBlanks stop))
      | none =>
        match after.takeListMark? s (4 - missing) with
        | some mark =>
          match context.openItem outline mark with
          | .done outline next => .done outline next
          | .block outline place => openContainers context fuel outline place
        | none =>
          match after.takeQuoteMark? s with
          | some place =>
            openContainers context fuel (outline.finishList.opened { container := .quote }) place
          | none => .block outline place

/-! ### Lines -/

/-- Reads the block at a place. -/
def block (context : BlockContext) (outline : Outline) (place : Indent) : Outline × Nat :=
  let s := context.source
  match s.blankLine? place.pos with
  | some next => (outline.noteBlank, next)
  | none =>
    let (after, missing) := place.take s 4
    let indent := 4 - missing
    let outline := outline.finishList
    let i := after.pos
    if missing = 0 then context.indentedCode outline i after.spare
    else
      let width := max place.spare indent
      let fuel := s.size + 1
      let htmlCloser := if s.has i '<' then s.htmlBlockCloser? (i + 1) else none
      match htmlCloser with
      | some closer =>
        let (pieces, next) := context.literalHtml outline closer fuel i width
        (outline.add (.html pieces), next)
      | none =>
        if s.has i '<' && (s.startsBlockElement (i + 1) || s.startsTagLine i) then
          let (pieces, next) := context.openHtml outline fuel i width
          (outline.add (.html pieces), next)
        else
          match s.thematicBreak? i with
          | some next => (outline.add .thematicBreak, next)
          | none =>
            match s.headingLevel? i with
            | some level => context.numberHeading outline level i
            | none =>
              match s.fence? i with
              | some (mark, length) => context.fencedCode outline mark length indent i
              | none => context.definitionsAndParagraph fuel outline i

/-- Reads the block that begins with the line at a position. -/
def line (context : BlockContext) (outline : Outline) (i : Nat) : Outline × Nat :=
  let (count, place) := takeContainers context.source (.start i) outline.containers
  match context.openContainers (context.source.size + 1) (outline.keep count) place with
  | .done outline next => (outline, next)
  | .block outline place => context.block outline place

/-- Reads all blocks from a position on. Every step goes at least one character further. -/
def readFrom (context : BlockContext) : (fuel : Nat) → Outline → (i : Nat) → Outline
  | 0, outline, _ => outline
  | fuel + 1, outline, i =>
    if i < context.source.size then
      let (outline, next) := context.line outline i
      readFrom context fuel outline next
    else outline

/-- Reads a text. -/
def read (context : BlockContext) : Outline :=
  (context.readFrom (context.source.size + 1) {} 0).keep 0

end BlockContext

/-- How many bytes of link targets the references of a text may repeat: as many as the text has, and
never fewer than this. -/
def leastAllowance : Nat := 100000

/-- The events of a Markdown text. -/
def events (options : Options) (text : String) : List Event :=
  let source : Source := text.toList.toArray
  let context : BlockContext := { source, options }
  let outline := context.read
  let events := blockEvents
    { source, footnotes := options.footnotes, link? := outline.link?,
      hasFootnote := outline.hasFootnote }
    [] false outline.blocks.reverse
  (events (max text.utf8ByteSize leastAllowance)).1

end IconMarkup.Markdown
