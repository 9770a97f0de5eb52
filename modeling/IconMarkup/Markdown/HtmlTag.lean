import IconMarkup.Markdown.Source

/-!
# HTML tags in Markdown

The tags that may stand in running text and begin an HTML block: start tags with well-formed
attributes, end tags, comments, processing instructions, declarations and character data sections.
A tag may go on over several lines, from which the marks of containers are left out.
-/

namespace IconMarkup.Markdown

/-! ### Scans -/

/-- A tag that was read in part: the next position, the position from which its text is still to be
taken, and the text before that, in reverse order. -/
structure TagScan where
  /-- The next position. -/
  pos : Nat
  /-- The position from which the text is still to be taken. -/
  mark : Nat
  /-- The text before that, the last character first. -/
  taken : List Char

namespace TagScan

/-- The scan after a line end, at which `width` characters of the next line are left out. -/
def leaveOut (s : Source) (scan : TagScan) (width : Nat) : TagScan :=
  if width = 0 then scan
  else ⟨scan.pos + width, scan.pos + width, (s.slice scan.mark scan.pos).reverse ++ scan.taken⟩

/-- The text of a tag that ends at the position of the scan. -/
def text (s : Source) (scan : TagScan) : String :=
  String.ofList (scan.taken.reverse ++ s.slice scan.mark scan.pos)

/-- Moves on. -/
def move (scan : TagScan) (pos : Nat) : TagScan :=
  { scan with pos := pos }

end TagScan

/-- How a tag goes on after a line end: the number of characters to leave out there; `none` if it
may not go on. -/
abbrev LineRule := Option (Nat → Nat)

/-! ### Start and end tags -/

namespace Source

/-- Reads characters up to one that is not of a kind, over line ends if the rule allows. -/
def tagRun? (s : Source) (rule : LineRule) (stop : Nat) (isKind : Char → Bool) :
    (fuel : Nat) → TagScan → Option TagScan
  | 0, _ => none
  | fuel + 1, scan =>
    match s[scan.pos]? with
    | none => some scan
    | some c =>
      if stop ≤ scan.pos || !isKind c then some scan
      else if c == '\n' || c == '\r' then do
        let width ← rule
        let next := (s.lineEnd? scan.pos).getD (scan.pos + 1)
        tagRun? s rule stop isKind fuel ((scan.move next).leaveOut s (width next))
      else tagRun? s rule stop isKind fuel (scan.move (scan.pos + 1))

/-- Skips white space in a tag. -/
def tagBlanks? (s : Source) (rule : LineRule) (stop : Nat) (scan : TagScan) : Option TagScan :=
  s.tagRun? rule stop isMarkdownBlank (s.size + 1) scan

/-- Reads the value of an attribute. -/
def tagValue? (s : Source) (rule : LineRule) (stop : Nat) (scan : TagScan) :
    Option TagScan := do
  let c ← s[scan.pos]?
  if c == '"' || c == '\'' then
    let last ← s.tagRun? rule stop (· != c) (s.size + 1) (scan.move (scan.pos + 1))
    if last.pos < stop && s.has last.pos c then some (last.move (last.pos + 1)) else none
  else
    let isBare (c : Char) : Bool := !("'\" =><`\n\r".toList.contains c)
    if isBare c then some (scan.move (s.skipWhile isBare scan.pos)) else none

/-- Reads an attribute: a name, and a value if an equals sign follows. -/
def tagAttribute? (s : Source) (rule : LineRule) (stop : Nat) (scan : TagScan) :
    Option TagScan := do
  if s.hasKind (fun c => c.isAlpha || c == '_' || c == ':') scan.pos then
    let named := scan.move (s.skipWhile
      (fun c => c.isAlphanum || c == '_' || c == '.' || c == ':' || c == '-') (scan.pos + 1))
    let sign ← s.tagBlanks? rule stop named
    if s.has sign.pos '=' then
      let value ← s.tagBlanks? rule stop (sign.move (sign.pos + 1))
      s.tagValue? rule stop value
    else some named
  else none

/-- Reads attributes, each after white space, up to `/` or `>`. -/
def tagAttributes? (s : Source) (rule : LineRule) (stop : Nat) :
    (fuel : Nat) → TagScan → Option TagScan
  | 0, _ => none
  | fuel + 1, scan => do
    let after ← s.tagBlanks? rule stop scan
    if s.has after.pos '/' || s.has after.pos '>' then some after
    else if after.pos = scan.pos then none
    else tagAttributes? s rule stop fuel (← s.tagAttribute? rule stop after)

/-- Reads the rest of a start or end tag from its `>` on. -/
def tagClose? (s : Source) (stop : Nat) (scan : TagScan) : Option TagScan :=
  if scan.pos < stop && s.has scan.pos '>' then some (scan.move (scan.pos + 1)) else none

/-- Reads a start tag or an end tag from its `<` on. -/
def tag? (s : Source) (rule : LineRule) (stop i : Nat) : Option TagScan := do
  let closing := s.has (i + 1) '/'
  let start := if closing then i + 2 else i + 1
  if s.hasKind Char.isAlpha start then
    let name := s.skipWhile (fun c => c.isAlphanum || c == '-') start
    let named : TagScan := ⟨name, i, []⟩
    if closing then s.tagClose? stop (named.move (s.skipBlanks name))
    else
      let last ← s.tagAttributes? rule stop (s.size + 1) named
      let pos := s.skipBlanks last.pos
      s.tagClose? stop (last.move (if s.has pos '/' then pos + 1 else pos))
  else none

/-! ### Comments and declarations -/

/-- The position after the first occurrence of a word between two positions. -/
def afterWord? (s : Source) (word : String) (start stop : Nat) : Option Nat :=
  (s.findWord? word start stop).map (· + word.length)

/-- The position after a comment, whose `<!` stands just before. -/
def comment? (s : Source) (stop i : Nat) : Option Nat :=
  if s.hasWord i "--" then
    if s.hasWord (i + 2) ">" then some (i + 3)
    else if s.hasWord (i + 2) "->" then some (i + 4)
    else s.afterWord? "-->" (i + 2) stop
  else none

/-- The position after a character data section, from a position inside on: the first run of closing
brackets ends it, if `>` follows. -/
def characterData? (s : Source) (stop i : Nat) : Option Nat :=
  let close := s.skipWhile (· != ']') i
  let last := close + s.runLength ']' close
  if close < last && last < stop && s.has last '>' then some (last + 1) else none

/-- The position after a markup declaration or a character data section, whose `<!` stands just
before. -/
def declaration? (s : Source) (stop i : Nat) : Option Nat :=
  if s.hasWord i "[CDATA[" then s.characterData? stop (i + 7)
  else if s.hasKind Char.isAlpha i then s.afterWord? ">" i stop
  else none

/-! ### Tags in running text and in lines -/

/-- Reads the tag in running text whose `<` stands at a position: its text and the position after
it. -/
def inlineTag? (s : Source) (leaveOut : Nat → Nat) (stop i : Nat) : Option (String × Nat) :=
  let whole (last : Nat) : String × Nat := (s.text i last, last)
  if s.has (i + 1) '!' then
    (s.comment? stop (i + 2) <|> s.declaration? stop (i + 2)).map whole
  else if s.has (i + 1) '?' then (s.afterWord? "?>" (i + 2) stop).map whole
  else
    (s.tag? (some leaveOut) stop i).bind fun scan =>
      if scan.pos ≤ stop then some (scan.text s, scan.pos) else none

/-- Whether a start tag or an end tag stands alone on its line. -/
def startsTagLine (s : Source) (i : Nat) : Bool :=
  (s.tag? none s.size i).any fun scan => (s.blankLine? scan.pos).isSome

end Source

end IconMarkup.Markdown
