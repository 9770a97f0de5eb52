import IconMarkup.Markdown.Block
import IconMarkup.Markdown.Container
import IconMarkup.Markdown.Label

/-!
# The outline of a text being read

The blocks that are complete and the containers that are still open, innermost first. Closing a
container makes a block of it inside the next one. A list is loose as soon as a blank line is found
between two of its items or two blocks of an item.
-/

namespace IconMarkup.Markdown

/-! ### Open containers -/

/-- A container that is still open, with its content in reverse order. -/
structure OpenContainer where
  /-- What it is. -/
  container : Container
  /-- The blocks inside, the last first. -/
  children : List Block := []
  /-- The label of a footnote. -/
  label : String := ""
  /-- The number of the first item of a list. -/
  start : Nat := 0
  /-- Whether no blank line was found in a list. -/
  tight : Bool := true

/-- The block of an open container. -/
def OpenContainer.toBlock (opened : OpenContainer) : Block :=
  let children := opened.children.reverse
  match opened.container with
  | .quote => .quote children
  | .list kind =>
    .list opened.tight (if isBullet kind then none else some opened.start) children
  | .item width => .item width children
  | .footnote => .footnote opened.label children

/-- The definition of a link label. -/
structure LinkDefinition where
  /-- The label without differences of case. -/
  key : List Char
  /-- The destination. -/
  destination : String
  /-- The title, empty if there is none. -/
  title : String
  deriving Repr

/-- The outline of a text that was read in part. -/
structure Outline where
  /-- The blocks at the top level, the last first. -/
  blocks : List Block := []
  /-- The open containers, innermost first. -/
  spine : List OpenContainer := []
  /-- Whether the last line was blank. -/
  afterBlank : Bool := false
  /-- Whether the last line was the mark of an item and nothing else. -/
  atBareMark : Bool := false
  /-- The definitions of link labels, the last first. -/
  links : List LinkDefinition := []
  /-- The labels of footnotes without differences of case. -/
  footnotes : List (List Char) := []

namespace Outline

/-- The open containers, outermost first. -/
def containers (outline : Outline) : List Container :=
  (outline.spine.map (·.container)).reverse

/-- Adds a block to the innermost container. -/
def add (outline : Outline) (block : Block) : Outline :=
  match outline.spine with
  | [] => { outline with blocks := block :: outline.blocks }
  | innermost :: outer =>
    { outline with spine := { innermost with children := block :: innermost.children } :: outer }

/-- Opens a container. -/
def opened (outline : Outline) (container : OpenContainer) : Outline :=
  { outline with spine := container :: outline.spine }

/-- Closes the innermost container. After a tight list no bare mark is open. -/
def close (outline : Outline) : Outline :=
  match outline.spine with
  | [] => outline
  | innermost :: outer =>
    let isTightList := match innermost.container with
      | .list _ => innermost.tight
      | _ => false
    let closed := { outline with spine := outer }.add innermost.toBlock
    if isTightList then { closed with atBareMark := false } else closed

/-! ### Closing -/

/-- Closes containers until only this many are open. -/
def closeTo (depth : Nat) : (fuel : Nat) → Outline → Outline
  | 0, outline => outline
  | fuel + 1, outline =>
    if depth < outline.spine.length then closeTo depth fuel outline.close else outline

/-- Closes all but the outermost `depth` containers. -/
def keep (outline : Outline) (depth : Nat) : Outline :=
  closeTo depth outline.spine.length outline

/-- The innermost container. -/
def innermost? (outline : Outline) : Option Container :=
  outline.spine.head?.map (·.container)

/-! ### Lists -/

/-- Whether the innermost container is a list. -/
def inList (outline : Outline) : Bool :=
  match outline.innermost? with
  | some (.list _) => true
  | _ => false

/-- Closes an item whose mark is followed by a blank line. -/
def finishBareMark (outline : Outline) : Outline :=
  let closed :=
    if outline.atBareMark && outline.afterBlank then
      match outline.innermost? with
      | some (.item _) => outline.close
      | _ => outline
    else outline
  { closed with atBareMark := false }

/-- Makes a list loose. -/
def loosen (opened : OpenContainer) : OpenContainer :=
  match opened.container with
  | .list _ => { opened with tight := false }
  | _ => opened

/-- Ends the list that no further item continues, and makes the list around loose if a blank line
comes before this line. -/
def finishList (outline : Outline) : Outline :=
  let outline := outline.finishBareMark
  let outline := if outline.inList then outline.close else outline
  if outline.afterBlank then
    match outline.spine with
    | innermost :: parent :: outer =>
      { outline with spine := innermost :: loosen parent :: outer, afterBlank := false }
    | _ => { outline with afterBlank := false }
  else outline

/-- Continues the innermost list with an item of this kind, or begins a list. -/
def continueList (outline : Outline) (kind : Char) (number : Nat) : Outline :=
  let outline := outline.finishBareMark
  if outline.innermost? = some (.list kind) then
    if outline.afterBlank then
      match outline.spine with
      | innermost :: outer =>
        { outline with spine := loosen innermost :: outer, afterBlank := false }
      | [] => outline
    else outline
  else
    let outline := if outline.spine.isEmpty then outline else outline.finishList
    let outline := outline.opened { container := .list kind, start := number }
    { outline with afterBlank := false }

/-- Takes note of a blank line. An item that consists of its mark so far loses its indentation. -/
def noteBlank (outline : Outline) : Outline :=
  let noted := { outline with afterBlank := true }
  match outline.spine with
  | [] => noted
  | innermost :: outer =>
    match innermost.container with
    | .quote => outline
    | .item _ =>
      if outline.atBareMark then
        { noted with spine := { innermost with container := .item 0 } :: outer }
      else noted
    | _ => noted

/-! ### Definitions and footnotes -/

/-- Adds a link definition, unless the label has one. -/
def define (outline : Outline) (label destination title : String) : Outline :=
  let key := labelKey label
  if outline.links.any (·.key == key) then outline
  else { outline with links := ⟨key, destination, title⟩ :: outline.links }

/-- Opens the definition of a footnote; one right before it is closed. -/
def openFootnote (outline : Outline) (label : String) : Outline :=
  let outline := outline.finishList
  let outline := if outline.innermost? = some .footnote then outline.close else outline
  let outline := outline.opened { container := .footnote, label := label }
  { outline with footnotes := labelKey label :: outline.footnotes }

/-- The destination and the title of a defined label. -/
def link? (outline : Outline) (label : String) : Option (String × String) :=
  let key := labelKey label
  (outline.links.find? (·.key == key)).map fun link => (link.destination, link.title)

/-- Whether a footnote has a definition. -/
def hasFootnote (outline : Outline) (label : String) : Bool :=
  outline.footnotes.contains (labelKey label)

end Outline

end IconMarkup.Markdown
