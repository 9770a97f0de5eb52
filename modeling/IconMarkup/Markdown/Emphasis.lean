import IconMarkup.Markdown.Inline

/-!
# Emphasis

Runs of `*`, `_` and `~` are matched to one another: a run that may close looks back for the
nearest run of the same mark that may open and fits it. As many marks as both have are used up at
once, in pairs for strong emphasis and the last odd one for emphasis; runs in between become text.
-/

namespace IconMarkup.Markdown

/-! ### Bounds of the search -/

/-- A piece of running text whose emphasis is not settled. -/
inductive Piece where
  /-- Settled text. -/
  | settled (inline : Inline)
  /-- A line end after a backslash. -/
  | backslashBreak
  /-- A run of marks. If the last of them is text, so is the tail. -/
  | run (mark : Char) (length : Nat) (canOpen canClose : Bool) (tail : String)
  deriving Repr

/-- A run that waits for its partner, with the text after it in reverse order. -/
structure Opener where
  /-- The mark. -/
  mark : Char
  /-- How many marks are left. -/
  count : Nat
  /-- How long the run was. -/
  length : Nat
  /-- Whether the run could also close. -/
  both : Bool
  /-- The text after the run, the last first. -/
  after : List Inline

/-- How many openers, from the outermost on, were searched without success, for each kind of closing
run. -/
structure SearchBounds where
  /-- One number for each kind of run. -/
  counts : Array Nat := Array.replicate 9 0

namespace SearchBounds

/-- The place of runs by the remainder of their length modulo three. -/
def lengthSlot (mark : Char) (length : Nat) : Nat :=
  (if mark == '_' then 0 else 3) + length % 3

/-- The place of runs that cannot open. -/
def closeOnlySlot (mark : Char) : Nat :=
  if mark == '_' then 6 else 7

/-- The place of tildes. -/
def tildeSlot : Nat := 8

/-- The number at a place. -/
def slot (bounds : SearchBounds) (place : Nat) : Nat :=
  bounds.counts[place]?.getD 0

/-- Changes the number at a place. -/
def put (bounds : SearchBounds) (place count : Nat) : SearchBounds :=
  ⟨bounds.counts.setIfInBounds place count⟩

/-- How many openers need not be searched for a run. -/
def get (bounds : SearchBounds) (mark : Char) (length : Nat) (both : Bool) : Nat :=
  if mark == '~' then bounds.slot tildeSlot
  else if both then bounds.slot (lengthSlot mark length)
  else min (bounds.slot (lengthSlot mark length)) (bounds.slot (closeOnlySlot mark))

/-- Records that the outermost `count` openers have no partner for a run. -/
def raise (bounds : SearchBounds) (mark : Char) (length : Nat) (both : Bool) (count : Nat) :
    SearchBounds :=
  if mark == '~' then bounds.put tildeSlot count
  else if mark == '_' then
    bounds.put (if both then lengthSlot mark length else closeOnlySlot mark) count
  else
    let byLength := bounds.put (lengthSlot mark length) count
    if both then byLength else byLength.put (closeOnlySlot mark) count

/-- Records that only `count` openers are left. -/
def lower (bounds : SearchBounds) (count : Nat) : SearchBounds :=
  ⟨bounds.counts.map (min count)⟩

end SearchBounds

/-! ### Runs of marks -/

/-- Where the matching of runs has come to. -/
structure RunState where
  /-- The text before all openers, the last first. -/
  base : List Inline
  /-- The openers, innermost first. -/
  openers : List Opener
  /-- What need not be searched again. -/
  bounds : SearchBounds

/-- Marks as text. -/
def marksText (mark : Char) (count : Nat) : Inline :=
  .text (String.ofList (List.replicate count mark))

/-- An opener and the text after it as mere text, the last first. -/
def Opener.asText (opener : Opener) : List Inline :=
  opener.after ++ [marksText opener.mark opener.count]

/-- The text in the layers of emphasis that a number of marks makes, the innermost first. -/
def wrapMarks (mark : Char) : Nat → List Inline → List Inline
  | 0, inside => inside
  | 1, inside => [if mark == '~' then .strikethrough inside else .emphasis inside]
  | n + 2, inside =>
    wrapMarks mark n [if mark == '~' then .strikethrough inside else .strong inside]

/-- Whether an opener is a partner for a closing run: the lengths add up to no multiple of three
if one of the runs can both open and close, unless both lengths are multiples of three. -/
def Opener.fits (opener : Opener) (mark : Char) (length : Nat) (both : Bool) : Bool :=
  opener.mark == mark && (mark != '~' || opener.length == length) &&
    ((!both && !opener.both) || (length + opener.length) % 3 != 0 || length % 3 == 0)

namespace RunState

/-- Adds text at the end. -/
def add (state : RunState) (inline : Inline) : RunState :=
  match state.openers with
  | [] => { state with base := inline :: state.base }
  | innermost :: outer =>
    { state with openers := { innermost with after := inline :: innermost.after } :: outer }

/-- Adds plain text at the end. -/
def addText (state : RunState) (content : String) : RunState :=
  if content.isEmpty then state else state.add (.text content)

/-- Adds several texts at the end. -/
def addAll (state : RunState) (inlines : List Inline) : RunState :=
  inlines.foldl add state

/-- Finds the partner of a closing run among the innermost openers: the text after the partner in
reverse order, the partner, and the openers around it. -/
def findOpener? (mark : Char) (length : Nat) (both : Bool) :
    (reach : Nat) → List Opener → (after : List Inline) →
      Option (List Inline × Opener × List Opener)
  | 0, _, _ => none
  | _, [], _ => none
  | reach + 1, opener :: outer, after =>
    if opener.fits mark length both then some (after ++ opener.after, opener, outer)
    else findOpener? mark length both reach outer (after ++ opener.asText)

/-- Matches a closing run of which `count` marks are left. Gives the marks that stay. -/
def close (mark : Char) (length : Nat) (both : Bool) :
    (fuel : Nat) → (count : Nat) → RunState → Nat × RunState
  | 0, count, state => (count, state)
  | _, 0, state => (0, state)
  | fuel + 1, count, state =>
    let size := state.openers.length
    let reach := size - min size (state.bounds.get mark length both)
    match findOpener? mark length both reach state.openers [] with
    | none => (count, { state with bounds := state.bounds.raise mark length both size })
    | some (inside, opener, outer) =>
      let used := min count opener.count
      let wrapped := wrapMarks mark used inside.reverse
      let bounds := state.bounds.lower outer.length
      let left : List Opener :=
        if used < opener.count then
          [{ opener with count := opener.count - used, after := [] }]
        else []
      let next : RunState := { state with openers := left ++ outer, bounds }
      close mark length both fuel (count - used) (next.addAll wrapped)

/-- Takes the next piece; `last` tells whether none follows. -/
def step (state : RunState) (piece : Piece) (last : Bool) : RunState :=
  match piece with
  | .settled inline => state.add inline
  | .backslashBreak => state.add (if last then .text "\\" else .hardBreak)
  | .run mark length canOpen canClose tail =>
    let both := canOpen && canClose
    let (count, state) := if canClose then close mark length both length length state
      else (length, state)
    if count = 0 then state
    else if canOpen then
      let opener : Opener := ⟨mark, count, length, both, []⟩
      { state with openers := opener :: state.openers }.addText tail
    else (state.add (marksText mark count)).addText tail

/-- The text, with the openers that found no partner as mere text. -/
def finish (state : RunState) : List Inline :=
  (state.openers.flatMap Opener.asText ++ state.base).reverse

end RunState

/-! ### Pieces in turn -/

/-- Matches the runs of a list of pieces. -/
def matchRuns : RunState → List Piece → RunState
  | state, [] => state
  | state, piece :: rest => matchRuns (state.step piece rest.isEmpty) rest

/-- Whether a piece is a run of marks. -/
def Piece.isRun : Piece → Bool
  | .run .. => true
  | _ => false

/-- Settles the emphasis of running text. A break by a backslash at the very end is a backslash, if
there are marks in the text. -/
def settleEmphasis (marked : Bool) (pieces : List Piece) : List Inline :=
  if marked then (matchRuns ⟨[], [], {}⟩ pieces).finish
  else pieces.filterMap fun
    | .settled inline => some inline
    | .backslashBreak => some .hardBreak
    | .run .. => none

end IconMarkup.Markdown
