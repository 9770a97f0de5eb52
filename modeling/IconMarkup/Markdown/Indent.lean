import IconMarkup.Markdown.Source

/-!
# Indentation

A place in the indentation of a line. A tab reaches to the next multiple of four columns, and part
of it can be taken as indentation while the rest is left over.
-/

namespace IconMarkup.Markdown

/-- A place in the indentation of a line. -/
structure Indent where
  /-- The position of the next character. -/
  pos : Nat
  /-- The position from which columns are counted. -/
  origin : Nat
  /-- The columns left over from a tab that was taken in part. -/
  spare : Nat
  deriving Repr

namespace Indent

/-- The beginning of a line. -/
def start (i : Nat) : Indent := ⟨i, i, 0⟩

/-- Takes up to `n` columns of spaces and tabs. Gives the place after them and how many columns
were missing. -/
def take (s : Source) (n : Nat) (place : Indent) : Indent × Nat :=
  let fromSpare := min place.spare n
  go { place with spare := place.spare - fromSpare } (n - fromSpare)
where
  go (place : Indent) (n : Nat) : Indent × Nat :=
    if h : 0 < n ∧ place.pos < s.size then
      match s[place.pos] with
      | ' ' => go { place with pos := place.pos + 1 } (n - 1)
      | '\t' =>
        let columns := 4 - (place.pos - place.origin) % 4
        let taken := min columns n
        go ⟨place.pos + 1, place.pos + 1, columns - taken⟩ (n - taken)
      | _ => (place, n)
    else (place, n)
  termination_by s.size - place.pos

/-- Takes up to `n` columns. -/
def takeUpTo (s : Source) (n : Nat) (place : Indent) : Indent :=
  (place.take s n).1

/-- Skips all spaces and tabs. -/
def skipAll (s : Source) (place : Indent) : Indent :=
  { place with pos := s.skipWhile (fun c => c == ' ' || c == '\t') place.pos, spare := 0 }

/-- Whether nothing is left of the line. -/
def atLineEnd (s : Source) (place : Indent) : Bool :=
  (s.lineEnd? place.pos).isSome

/-- Takes the mark of a quotation: `>` and one column. -/
def takeQuoteMark? (s : Source) (place : Indent) : Option Indent :=
  if s.has place.pos '>' then some ({ place with pos := place.pos + 1 }.takeUpTo s 1) else none

end Indent

end IconMarkup.Markdown
