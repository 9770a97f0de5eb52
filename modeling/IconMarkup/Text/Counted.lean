/-!
# Counted nouns

A number followed by its noun, in the plural unless the number is one.
-/

namespace IconMarkup.Text

/-- The ending of a noun that is counted `n` times. -/
def pluralEnding (n : Nat) : String :=
  if n = 1 then "" else "s"

/-- A number with its noun, as in `2 files`. -/
def counted (n : Nat) (noun : String) : String :=
  toString n ++ " " ++ noun ++ pluralEnding n

end IconMarkup.Text
