/-!
# TOML values

The values that a TOML text gives to its keys. Numbers with a fraction and dates keep their
spelling, because nothing is computed with them. The entries of a table stand in the order in which
the text defines them.
-/

namespace IconMarkup.Toml

/-- A value. -/
inductive Value where
  /-- A text. -/
  | string (content : String)
  /-- A whole number. -/
  | integer (value : Int)
  /-- A number with a fraction or an exponent, as written. -/
  | float (literal : String)
  /-- A truth value. -/
  | boolean (value : Bool)
  /-- A date, a time or both, as written. -/
  | datetime (literal : String)
  /-- A sequence of values. -/
  | array (elements : List Value)
  /-- Values by their keys. -/
  | table (entries : List (String × Value))
  deriving Repr

/-- The values of a table by their keys. -/
abbrev Table := List (String × Value)

end IconMarkup.Toml
