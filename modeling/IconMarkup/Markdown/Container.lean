import IconMarkup.Markdown.BlockStart

/-!
# Containers

The blocks that hold other blocks, and what a line must begin with to go on inside them. A list
makes no demand of its own; its items ask for the indentation of their content.
-/

namespace IconMarkup.Markdown

/-- A block that holds other blocks. -/
inductive Container where
  /-- A quotation. -/
  | quote
  /-- A list, by the mark of its items. -/
  | list (kind : Char)
  /-- A list item whose content is indented by this many columns. -/
  | item (width : Nat)
  /-- The definition of a footnote. -/
  | footnote
  deriving DecidableEq, Repr

/-- The columns that a footnote is indented by. -/
def footnoteWidth : Nat := 4

/-- Takes indentation that a blank line may lack. -/
def Indent.takeContent? (s : Source) (width : Nat) (place : Indent) : Option Indent :=
  match place.take s width with
  | (after, 0) => some after
  | (after, _) => if after.atLineEnd s then some after else none

/-- Takes what a line must begin with to go on inside a container. -/
def Container.take? (s : Source) (place : Indent) : Container → Option Indent
  | .quote => (place.takeUpTo s 3).takeQuoteMark? s
  | .list _ => some place
  | .item width => place.takeContent? s width
  | .footnote => place.takeContent? s footnoteWidth

/-- Follows a line into containers, outermost first: how many of them it goes on inside, and the
place after what they ask for. -/
def takeContainers (s : Source) (place : Indent) : List Container → Nat × Indent
  | [] => (0, place)
  | container :: inner =>
    match container.take? s place with
    | none => (0, place)
    | some after =>
      let (count, place) := takeContainers s after inner
      (count + 1, place)

/-- How many characters at a position belong to the containers of a line. -/
def containerWidth (s : Source) (containers : List Container) (i : Nat) : Nat :=
  (takeContainers s (.start i) containers).2.pos - i

end IconMarkup.Markdown
