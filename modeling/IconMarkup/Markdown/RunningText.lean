import IconMarkup.Markdown.Autolink
import IconMarkup.Markdown.Destination
import IconMarkup.Markdown.Emphasis
import IconMarkup.Markdown.HtmlTag
import IconMarkup.Markdown.Label
import IconMarkup.Markdown.Title

/-!
# From items to running text

The items of a block are settled from left to right: autolinks and tags, code, and at each closing
bracket the link, image or footnote that it may end. Brackets that come to nothing are text.
Emphasis is settled last, inside every link on its own.
-/

namespace IconMarkup.Markdown

/-! ### Brackets and their texts -/

/-- What settling the text of a block is about. -/
structure TextContext where
  /-- The text. -/
  source : Source
  /-- Whether footnotes are read. -/
  footnotes : Bool
  /-- The containers around the block, outermost first. -/
  containers : List Container
  /-- Whether the block is a cell of a table. -/
  inTable : Bool
  /-- Where the block ends. -/
  stop : Nat
  /-- The destination and the title of a defined label. -/
  link? : String → Option (String × String)
  /-- Whether a footnote has a definition. -/
  hasFootnote : String → Bool

/-- What an open bracket may begin. -/
inductive BracketKind where
  /-- A link. -/
  | link
  /-- An image. -/
  | image
  /-- Nothing, because a link inside is complete. -/
  | nothing
  deriving DecidableEq, Repr

/-- An open bracket with the pieces before it in reverse order. -/
structure Bracket where
  /-- What it may begin. -/
  kind : BracketKind
  /-- Where it ends. -/
  stop : Nat
  /-- The bracket as written. -/
  written : String
  /-- The pieces before it, the last first. -/
  before : List Piece

/-- A text as a piece. -/
def textPiece (content : String) : Piece := .settled (.text content)

/-- Gives up the brackets: the pieces before, of and after them, the last first. -/
def flatten : List Bracket → List Piece → List Piece
  | [], pieces => pieces
  | bracket :: outer, pieces =>
    flatten outer (pieces ++ textPiece bracket.written :: bracket.before)

/-- The items from a position on; the first of them may lose its beginning. -/
def itemsFrom (i : Nat) : List Item → List Item
  | [] => []
  | item :: rest =>
    if item.stop ≤ i then itemsFrom i rest else { item with start := max item.start i } :: rest

/-! ### Code and literal text -/

namespace TextContext

/-- The content of a code span, from a position on: characters of line ends become spaces, and what
belongs to containers is left out. -/
def codeFrom (text : TextContext) (span : Source) (i : Nat) : List Char :=
  if _h : i < span.size then
    match span[i]? with
    | none => []
    | some c =>
      if c == '\n' || c == '\r' then
        let next := i + 1
        ' ' :: codeFrom text span (next + containerWidth span text.containers next)
      else if text.inTable && c == '\\' && span.has (i + 1) '|' then
        '|' :: codeFrom text span (i + 2)
      else c :: codeFrom text span (i + 1)
  else []
termination_by span.size - i

/-- The content of a code span without the one space that may pad it at each end. -/
def code (text : TextContext) (start stop : Nat) : String :=
  let content := text.codeFrom (text.source.extract start stop) 0
  let padded := content.any (· != ' ') && content.head? == some ' ' &&
    content.getLast? == some ' '
  String.ofList (if padded then content.tail.dropLast else content)

/-- An item as mere text. -/
def literal (text : TextContext) (item : Item) : String :=
  text.source.text item.start item.stop

/-! ### Targets and labels -/

/-- Skips white space with at most one line end. -/
def skipSeparator (text : TextContext) (i : Nat) : Nat :=
  let s := text.source
  let first := s.skipBlanks i
  if first < text.stop then
    match s.lineEnd? first with
    | some next => s.skipBlanks (next + containerWidth s text.containers next)
    | none => first
  else first

/-- Reads the destination and the title of a link after its closing bracket: they stand in
parentheses. Gives the position after them too. -/
def inlineTarget? (text : TextContext) (items : List Item) (i : Nat) :
    Option (String × String × Nat) := do
  let s := text.source
  if text.stop ≤ i || !s.has i '(' then failure
  let (start, last, after) ← s.destination? text.stop (text.skipSeparator (i + 1))
  let destination := unescape text.inTable s start last
  let place := text.skipSeparator after
  let (title, place) :=
    match if place < text.stop then readTitle? s text.inTable items text.stop place else none with
    | some (title, after) => (title, text.skipSeparator after)
    | none => ("", place)
  if place < text.stop && s.has place ')' then some (destination, title, place + 1) else none

/-- What a label in brackets names. -/
inductive Named where
  /-- The target of a link. -/
  | link (label : String)
  /-- A footnote. -/
  | footnote (label : String)

/-- Reads a label in brackets: what it names and the position after it. -/
def label? (text : TextContext) (i : Nat) : Option (Named × Nat) :=
  let s := text.source
  let bounded (read : Option (Nat × String)) : Option (Nat × String) :=
    read.filter fun (stop, _) => stop ≤ text.stop
  if s.has i '[' && i + 1 < text.stop then
    let note :=
      if text.footnotes && s.has (i + 1) '^' && !s.has (i + 2) ']' then
        bounded (readLabel? s text.inTable (fun _ => none) (i + 2))
      else none
    match note with
    | some (stop, label) => some (.footnote label, stop)
    | none =>
      let resume (next : Nat) : Option Nat := some (next + containerWidth s text.containers next)
      (bounded (readLabel? s text.inTable resume (i + 1))).map
        fun (stop, label) => (.link label, stop)
  else none

/-- Marks the bracket that ends before a position as one that refers to nothing: the items before
it, and those after it. -/
def retireBracket (stop : Nat) : List Item → Option (List Item × List Item)
  | [] => none
  | item :: rest =>
    if stop ≤ item.stop then some ([{ item with kind := .closeBracket false }], rest)
    else (retireBracket stop rest).map fun (before, after) => (item :: before, after)

/-! ### States -/

/-- Where settling has come to. -/
structure State where
  /-- The pieces after the innermost bracket, the last first. -/
  pieces : List Piece
  /-- The open brackets, innermost first. -/
  brackets : List Bracket
  /-- How much of the targets of defined labels may still be repeated, in bytes. -/
  allowance : Nat

/-- Adds a piece. -/
def State.add (state : State) (piece : Piece) : State :=
  { state with pieces := piece :: state.pieces }

/-- Adds text. -/
def State.addText (state : State) (content : String) : State :=
  if content.isEmpty then state else state.add (textPiece content)

/-- Opens a bracket. -/
def State.opened (state : State) (kind : BracketKind) (stop : Nat) (written : String) : State :=
  { state with pieces := [], brackets := ⟨kind, stop, written, state.pieces⟩ :: state.brackets }

/-- Gives up the innermost bracket and adds the closing one. -/
def State.failed (state : State) (outer : List Bracket) (bracket : Bracket) (closing : String) :
    State :=
  { state with
    pieces := textPiece closing :: (state.pieces ++ textPiece bracket.written :: bracket.before)
    brackets := outer }

/-- Makes a link or an image of the pieces after a bracket. A link leaves no link around it. -/
def State.linked (state : State) (outer : List Bracket) (bracket : Bracket)
    (destination title : String) : State :=
  let content := settleEmphasis (state.pieces.any Piece.isRun) state.pieces.reverse
  if bracket.kind = .image then
    { state with
      pieces := .settled (.image destination title content) :: bracket.before
      brackets := outer }
  else
    { state with
      pieces := .settled (.link destination title content) :: bracket.before
      brackets := outer.map fun b => if b.kind = .link then { b with kind := .nothing } else b }

/-- Makes a reference to a footnote of the pieces after a bracket, and gives up all brackets around
it. -/
def State.noted (state : State) (outer : List Bracket) (bracket : Bracket) (label : String) :
    State :=
  let mark := if bracket.kind = .image then [textPiece "!"] else []
  { state with
    pieces := flatten outer (.settled (.footnote label) :: (mark ++ bracket.before))
    brackets := [] }

/-- Looks up a label as long as there is an allowance, and takes what it stands for from it. -/
def State.resolve? (state : State) (text : TextContext) (label : String) :
    Option (String × String × State) :=
  if state.allowance = 0 then none
  else (text.link? label).map fun (destination, title) =>
    (destination, title, { state with
      allowance := state.allowance - (destination.utf8ByteSize + title.utf8ByteSize) })

/-! ### Closing brackets -/

/-- Settles a closing bracket by its label: the full reference after it, or its own content. -/
def closeByLabel (text : TextContext) (item : Item) (mayRefer : Bool) (outer : List Bracket)
    (bracket : Bracket) (state : State) (rest : List Item) : State × List Item :=
  let s := text.source
  let failed := state.failed outer bracket (text.literal item)
  let next := (rest.head?.map (·.start)).getD text.stop
  let follows := !rest.isEmpty
  let collapsed := follows && s.hasWord next "[]"
  let full := if follows && !collapsed then text.label? next else none
  match full with
  | some (.link label, stop) =>
    match retireBracket stop rest with
    | none => (failed, rest)
    | some (before, after) =>
      match state.resolve? text label with
      | some (destination, title, state) => (state.linked outer bracket destination title, after)
      | none => (failed, before ++ after)
  | _ =>
    if !mayRefer then (failed, rest)
    else
      match text.label? (bracket.stop - 1) with
      | some (.footnote label, stop) =>
        if stop = item.stop && text.hasFootnote label then (state.noted outer bracket label, rest)
        else (failed, rest)
      | some (.link label, stop) =>
        match if stop = item.stop then state.resolve? text label else none with
        | some (destination, title, state) =>
          (state.linked outer bracket destination title, if collapsed then rest.drop 2 else rest)
        | none => (failed, rest)
      | none => (failed, rest)

/-- Settles a closing bracket. -/
def closeBracket (text : TextContext) (item : Item) (mayRefer : Bool) (state : State)
    (rest : List Item) : State × List Item :=
  match state.brackets with
  | [] => (state.add (textPiece (text.literal item)), rest)
  | bracket :: outer =>
    if bracket.kind = .nothing then (state.failed outer bracket (text.literal item), rest)
    else
      match text.inlineTarget? rest item.stop with
      | some (destination, title, stop) =>
        (state.linked outer bracket destination title, itemsFrom stop rest)
      | none => text.closeByLabel item mayRefer outer bracket state rest

/-! ### Code spans and tags -/

/-- The items after the next run of backquotes of a length, and where that run begins. -/
def closingBackquotes? (length : Nat) : List Item → Option (Nat × List Item)
  | [] => none
  | item :: rest =>
    match item.kind with
    | .backquotes count _ =>
      if count = length then some (item.start, rest) else closingBackquotes? length rest
    | _ => closingBackquotes? length rest

/-- Settles a run of backquotes. -/
def openCode (text : TextContext) (item : Item) (count : Nat) (escaped : Bool) (state : State)
    (rest : List Item) : State × List Item :=
  let wanted := if escaped then count - 1 else count
  if wanted = 0 then (state.addText (text.literal item), rest)
  else
    match closingBackquotes? wanted rest with
    | none => (state.addText (text.literal item), rest)
    | some (stop, after) =>
      let before := if escaped then state.addText "`" else state
      (before.add (.settled (.code (text.code item.stop stop))), after)

/-- Settles a `<`. -/
def openTag (text : TextContext) (item : Item) (state : State) (rest : List Item) :
    State × List Item :=
  let s := text.source
  if rest.isEmpty then (state.addText (text.literal item), rest)
  else
    match s.autolink? text.stop item.stop with
    | some close =>
      let address := s.text item.stop close
      (state.add (.settled (.link address "" [.text address])), itemsFrom (close + 1) rest)
    | none =>
      match s.inlineTag? (containerWidth s text.containers) text.stop item.start with
      | some (tag, stop) => (state.add (.settled (.html tag)), itemsFrom stop rest)
      | none => (state.addText (text.literal item), rest)

/-! ### Items in turn -/

/-- Settles one item. -/
def step (text : TextContext) (item : Item) (state : State) (rest : List Item) :
    State × List Item :=
  match item.kind with
  | .text => (state.addText (text.literal item), rest)
  | .given content => (state.addText content, rest)
  | .run mark length canOpen canClose =>
    let tail := text.source.text (item.start + length) item.stop
    (state.add (.run mark length canOpen canClose tail), rest)
  | .backquotes count escaped => text.openCode item count escaped state rest
  | .lessThan => text.openTag item state rest
  | .openLink => (state.opened .link item.stop (text.literal item), rest)
  | .openImage => (state.opened .image item.stop (text.literal item), rest)
  | .closeBracket mayRefer => text.closeBracket item mayRefer state rest
  | .softBreak => (state.add (.settled .softBreak), rest)
  | .hardBreak true => (state.add .backslashBreak, rest)
  | .hardBreak false => (state.add (.settled .hardBreak), rest)
  | .checkBox checked => (state.add (.settled (.checkBox checked)), rest)

/-- Settles items, of which there are at most as many as the fuel says. -/
def settleFrom (text : TextContext) : (fuel : Nat) → State → List Item → State
  | 0, state, _ => state
  | _, state, [] => state
  | fuel + 1, state, item :: rest =>
    let (state, rest) := text.step item state rest
    settleFrom text fuel state rest

/-- Settles the items of a block. Gives what is left of the allowance too. -/
def settle (text : TextContext) (allowance : Nat) (items : List Item) : List Inline × Nat :=
  let final := text.settleFrom items.length ⟨[], [], allowance⟩ items
  let pieces := (flatten final.brackets final.pieces).reverse
  (settleEmphasis (items.any (·.kind.isMark)) pieces, final.allowance)

end TextContext

end IconMarkup.Markdown
