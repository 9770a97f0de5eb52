/-!
# White space

The characters that separate words: the Unicode property `White_Space`, and the smaller set of
ASCII white space. `trim` strips such characters from both ends of a text and `words` splits a
text at every run of them.
-/

namespace IconMarkup.Text

/-- The Unicode property `White_Space`. -/
def isBlank (c : Char) : Bool :=
  let n := c.toNat
  (0x9 ≤ n && n ≤ 0xD) || n == 0x20 || n == 0x85 || n == 0xA0 || n == 0x1680 ||
    (0x2000 ≤ n && n ≤ 0x200A) || n == 0x2028 || n == 0x2029 || n == 0x202F || n == 0x205F ||
    n == 0x3000

/-- Space, tab, line feed, form feed and carriage return. -/
def isAsciiBlank (c : Char) : Bool :=
  c == ' ' || c == '\t' || c == '\n' || c == '\x0c' || c == '\r'

/-- Drops the white space at the start. -/
def trimStart (cs : List Char) : List Char :=
  cs.dropWhile isBlank

/-- Drops the white space at the end. -/
def trimEnd (cs : List Char) : List Char :=
  (cs.reverse.dropWhile isBlank).reverse

/-- Drops the white space at both ends. -/
def trim (s : String) : String :=
  String.ofList (trimEnd (trimStart s.toList))

/-- The maximal runs of characters outside `separates`, in order. -/
def splitAtRuns (separates : Char → Bool) : List Char → List (List Char)
  | [] => []
  | [c] => if separates c then [] else [[c]]
  | c :: d :: cs =>
    if separates c then splitAtRuns separates (d :: cs)
    else if separates d then [c] :: splitAtRuns separates (d :: cs)
    else match splitAtRuns separates (d :: cs) with
      | [] => [[c]]
      | word :: rest => (c :: word) :: rest

/-- The words of a text: its maximal runs without white space. -/
def words (s : String) : List String :=
  (splitAtRuns isBlank s.toList).map String.ofList

end IconMarkup.Text
