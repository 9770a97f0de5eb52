import IconMarkup.Text.Numeral

/-!
# Dates and times in TOML

A date, a time of day, or a date and a time with or without an offset, in the form of RFC 3339.
-/

namespace IconMarkup.Toml

/-- Reads a number of exactly `count` decimal digits between two bounds. -/
def fixedNumber? (count least most : Nat) (cs : List Char) : Option (Nat × List Char) :=
  let digits := cs.take count
  if digits.length = count && digits.all Char.isDigit then
    match Text.numeral? 10 digits with
    | some value => if least ≤ value && value ≤ most then some (value, cs.drop count) else none
    | none => none
  else none

/-- Takes a character. -/
def takeChar? (c : Char) : List Char → Option (List Char)
  | d :: rest => if d = c then some rest else none
  | [] => none

/-- The number of days of a month. -/
def monthDays (year month : Nat) : Nat :=
  if month = 2 then
    if year % 4 = 0 && (year % 100 != 0 || year % 400 = 0) then 29 else 28
  else if month = 4 || month = 6 || month = 9 || month = 11 then 30
  else 31

/-- Takes a date. -/
def takeDate? (cs : List Char) : Option (List Char) := do
  let (year, rest) ← fixedNumber? 4 0 9999 cs
  let (month, rest) ← fixedNumber? 2 1 12 (← takeChar? '-' rest)
  let (_, rest) ← fixedNumber? 2 1 (monthDays year month) (← takeChar? '-' rest)
  return rest

/-- Takes the fraction of a second, if one follows. -/
def takeFraction : List Char → List Char
  | '.' :: c :: rest => if c.isDigit then rest.dropWhile Char.isDigit else '.' :: c :: rest
  | cs => cs

/-- Takes a time of day. -/
def takeTime? (cs : List Char) : Option (List Char) := do
  let (_, rest) ← fixedNumber? 2 0 23 cs
  let (_, rest) ← fixedNumber? 2 0 59 (← takeChar? ':' rest)
  let (_, rest) ← fixedNumber? 2 0 60 (← takeChar? ':' rest)
  return takeFraction rest

/-- Whether a text is empty or an offset from universal time. -/
def isOffset : List Char → Bool
  | [] => true
  | [c] => c == 'Z' || c == 'z'
  | c :: cs =>
    let rest := do
      let (_, rest) ← fixedNumber? 2 0 23 cs
      let (_, rest) ← fixedNumber? 2 0 59 (← takeChar? ':' rest)
      return rest
    (c == '+' || c == '-') && rest == some []

/-- Whether a text is a time of day with an optional offset. -/
def isTimeWithOffset (cs : List Char) : Bool :=
  (takeTime? cs).any isOffset

/-- Whether a text is a date. -/
def isDate (cs : List Char) : Bool :=
  takeDate? cs == some []

/-- Whether a text is a date, a time of day or both. -/
def isMoment (cs : List Char) : Bool :=
  match takeDate? cs with
  | some [] => true
  | some (c :: rest) => (c == 'T' || c == 't') && isTimeWithOffset rest
  | none => takeTime? cs == some []

end IconMarkup.Toml
