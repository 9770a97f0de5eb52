import IconMarkup.Markdown.Source

/-!
# Autolinks

An absolute address or a mail address in angle brackets.
-/

namespace IconMarkup.Markdown

namespace Source

/-- Reads an absolute address and the closing bracket: a scheme of 2 to 32 characters, a colon, and
anything without blanks, controls and brackets. The position is that after the opening bracket; the
answer is that of the closing one. -/
def address? (s : Source) (stop i : Nat) : Option Nat :=
  if s.hasKind Char.isAlpha i then
    let colon := s.skipWhile
      (fun c => c.isAlphanum || c == '.' || c == '-' || c == '+') (i + 1)
    if s.has colon ':' && 2 ≤ colon - i && colon - i ≤ 32 then
      let last := s.skipWhile (fun c => 0x20 < c.toNat && c != '<' && c != '>') (colon + 1)
      if last < stop && s.has last '>' then some last else none
    else none
  else none

/-- A character of a mail address before the `@`. -/
def isMailChar (c : Char) : Bool :=
  c.isAlphanum || ".!#$%&'*+/=?^_`\x7b|\x7d~-".toList.contains c

/-- Reads the labels of a host name: letters, digits and inner hyphens, at most 63 of them, with
dots between the labels. -/
def hostLabels? (s : Source) : (fuel : Nat) → (i : Nat) → Option Nat
  | 0, _ => none
  | fuel + 1, i =>
    let last := s.skipWhile (fun c => c.isAlphanum || c == '-') i
    if last = i || 63 < last - i || s.has i '-' || s.has (last - 1) '-' then none
    else if s.has last '.' then hostLabels? s fuel (last + 1)
    else some last

/-- Reads a mail address and the closing bracket, whose position is the answer. -/
def mailAddress? (s : Source) (stop i : Nat) : Option Nat := do
  let sign := s.skipWhile isMailChar i
  if i < sign && s.has sign '@' then
    let last ← s.hostLabels? (s.size + 1) (sign + 1)
    if last < stop && s.has last '>' then some last else none
  else none

/-- Reads the address of an autolink after the opening bracket; the answer is the position of the
closing one. -/
def autolink? (s : Source) (stop i : Nat) : Option Nat :=
  s.address? stop i <|> s.mailAddress? stop i

end Source

end IconMarkup.Markdown
