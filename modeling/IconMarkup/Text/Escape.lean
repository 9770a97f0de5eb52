/-!
# Escaping

A text stands in markup with its special characters written as character references: `&`, `<` and
`>` in running text, `&` and the double quote in a quoted attribute value.
-/

namespace IconMarkup.Text

/-- The reference that stands for a character in running text. -/
def textReference? : Char → Option String
  | '&' => some "&amp;"
  | '<' => some "&lt;"
  | '>' => some "&gt;"
  | _ => none

/-- The reference that stands for a character in a double-quoted attribute value. -/
def attributeReference? : Char → Option String
  | '&' => some "&amp;"
  | '"' => some "&quot;"
  | _ => none

/-- Writes the characters that have a reference by it and all others as they are. -/
def escapeWith (reference? : Char → Option String) (cs : List Char) : List Char :=
  cs.flatMap fun c => match reference? c with
    | some reference => reference.toList
    | none => [c]

/-- The written form of running text. -/
def escapeText (cs : List Char) : List Char :=
  escapeWith textReference? cs

theorem escapeText_append (first second : List Char) :
    escapeText (first ++ second) = escapeText first ++ escapeText second :=
  List.flatMap_append

/-- The written form of an attribute value between double quotes. -/
def escapeAttribute (cs : List Char) : List Char :=
  escapeWith attributeReference? cs

end IconMarkup.Text
