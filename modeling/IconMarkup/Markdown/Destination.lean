import IconMarkup.Markdown.Reference

/-!
# Link destinations

A destination stands in angle brackets on one line, or it is a run without blanks and controls
whose parentheses are balanced.
-/

namespace IconMarkup.Markdown

/-- A parenthesis may open in a destination while no more than this many others are open. -/
def destinationNesting : Nat := 32

namespace Source

/-- Reads a destination in angle brackets up to the closing one. -/
def pointedDestination? (s : Source) (stop i : Nat) : Option Nat :=
  if _h : i < stop then
    match s[i]? with
    | none => none
    | some c =>
      if c == '\n' || c == '\r' || c == '<' then none
      else if c == '>' then some i
      else if c == '\\' && i + 1 < stop && s.hasKind Text.isAsciiPunctuation (i + 1) then
        pointedDestination? s stop (i + 2)
      else pointedDestination? s stop (i + 1)
  else none
termination_by stop - i

/-- Reads a destination without angle brackets, in which `opened` parentheses are open. -/
def bareDestination? (s : Source) (stop opened i : Nat) : Option Nat :=
  if _h : i < stop then
    match s[i]? with
    | none => if opened = 0 then some i else none
    | some c =>
      if c.toNat ≤ 0x20 then if opened = 0 then some i else none
      else if c == '(' then
        if destinationNesting < opened then none
        else bareDestination? s stop (opened + 1) (i + 1)
      else if c == ')' then
        if opened = 0 then some i else bareDestination? s stop (opened - 1) (i + 1)
      else if c == '\\' && i + 1 < stop && s.hasKind Text.isAsciiPunctuation (i + 1) then
        bareDestination? s stop opened (i + 2)
      else bareDestination? s stop opened (i + 1)
  else if opened = 0 then some i else none
termination_by stop - i

/-- Reads a link destination before `stop`: where it begins and ends, and the position after it. -/
def destination? (s : Source) (stop i : Nat) : Option (Nat × Nat × Nat) :=
  if i < stop && s.has i '<' then
    (s.pointedDestination? stop (i + 1)).map fun close => (i + 1, close, close + 1)
  else (s.bareDestination? stop 0 i).map fun last => (i, last, last)

end Source

end IconMarkup.Markdown
