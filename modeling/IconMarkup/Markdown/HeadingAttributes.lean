import IconMarkup.Markdown.Block
import IconMarkup.Text.Blank

/-!
# Heading attributes

The text of a heading may end in a block of attributes in braces, such as `{#name .class}`. Of the
attributes in it, the last one that begins with a number sign names the heading.
-/

namespace IconMarkup.Markdown

/-- A character of a block of attributes. -/
def isAttributeChar (c : Char) : Bool :=
  c != '\x7b' && c != '\x7d' && c != '<' && c != '>' && c != '\\' && c != '\n' && c != '\r'

/-- The name in a block of attributes. -/
def attributeId? (content : List Char) : Option String :=
  let items := Text.splitAtRuns Text.isAsciiBlank content
  (items.filterMap fun
    | '#' :: c :: cs => some (String.ofList (c :: cs))
    | _ => none).getLast?

/-- Cuts the block of attributes off the end of a text: where the rest ends, and the name in the
block. -/
def cutAttributes? (s : Source) (start stop : Nat) : Option (Nat × Option String) :=
  let last := s.backWhile (fun c => c == '\n' || c == '\r' || c == ' ' || c == '\t') start stop
  if start < last && s.has (last - 1) '\x7d' then
    let first := s.backWhile isAttributeChar start (last - 1)
    if start < first && s.has (first - 1) '\x7b' then
      some (first - 1, attributeId? (s.slice first (last - 1)))
    else none
  else none

/-- Cuts items at a position: those before it, and those that stay although they stand after it. A
backslash that escapes the first character that is cut off is text, and then only the item with
that character is cut off. -/
def cutItems (s : Source) (stop : Nat) : List Item → List Item × List Item
  | [] => ([], [])
  | item :: rest =>
    if item.stop < stop then
      let (kept, after) := cutItems s stop rest
      (item :: kept, after)
    else if item.stop = stop then ([item], [])
    else if item.start = stop then
      if item.kind = .text && 0 < stop && s.has (stop - 1) '\\' then
        ([⟨stop - 1, stop, .text⟩], rest)
      else ([], [])
    else ([{ item with stop := stop }], [])

/-- Lets the last item end at a position. -/
def endLast (stop : Nat) (items : List Item) : List Item :=
  match items.reverse with
  | [] => []
  | last :: before => ({ last with stop := stop } :: before).reverse

end IconMarkup.Markdown
