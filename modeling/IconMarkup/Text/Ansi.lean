/-!
# Styled terminal text

ANSI escape sequences around a text: a colour or a weight is switched on before it and off after.
-/

namespace IconMarkup.Text.Ansi

/-- The text between the sequences with these two codes. -/
def wrap (on off : String) (s : String) : String :=
  "\x1b[" ++ on ++ "m" ++ s ++ "\x1b[" ++ off ++ "m"

/-- Bold text. -/
def bold : String → String := wrap "1" "0"

/-- Dimmed text. -/
def dim : String → String := wrap "2" "0"

/-- Red text. -/
def red : String → String := wrap "31" "39"

/-- Yellow text. -/
def yellow : String → String := wrap "33" "39"

/-- Cyan text. -/
def cyan : String → String := wrap "36" "39"

/-- Bright red text. -/
def brightRed : String → String := wrap "91" "39"

/-- Bright green text. -/
def brightGreen : String → String := wrap "92" "39"

/-- Bright yellow text. -/
def brightYellow : String → String := wrap "93" "39"

/-- Bright blue text. -/
def brightBlue : String → String := wrap "94" "39"

end IconMarkup.Text.Ansi
