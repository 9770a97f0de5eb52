import IconMarkup.Text.Numeral
import IconMarkup.Toml.Blank

/-!
# Quoted text in TOML

Text in double quotes, where a backslash escapes, and in single quotes, where it does not. Three
quotes enclose text that goes on over lines: a line end right after the opening quotes is dropped,
a backslash at the end of a line drops the white space that follows, and up to two quotes may stand
anywhere, also just before the closing ones.
-/

namespace IconMarkup.Toml

/-- The character that a number of hexadecimal digits stands for. -/
def hexEscape? (digits : List Char) : Option Char := do
  let code ← Text.numeral? 16 digits
  if code.isValidChar then some (Char.ofNat code) else none

/-- The character that a letter after a backslash stands for. -/
def letterEscape? : Char → Option Char
  | 'b' => some '\x08'
  | 't' => some '\t'
  | 'n' => some '\n'
  | 'f' => some '\x0c'
  | 'r' => some '\r'
  | '"' => some '"'
  | '\\' => some '\\'
  | _ => none

/-- How many hexadecimal digits follow a letter after a backslash. -/
def hexDigits : Char → Nat
  | 'u' => 4
  | 'U' => 8
  | _ => 0

/-- Reads what follows the backslash of an escape. -/
def escape? : List Char → Option (Char × List Char)
  | [] => none
  | c :: rest =>
    let digits := hexDigits c
    let character :=
      if digits = 0 then letterEscape? c
      else if rest.length < digits then none
      else hexEscape? (rest.take digits)
    character.map fun character => (character, rest.drop digits)

theorem length_of_escape? {cs rest : List Char} {c : Char} (h : escape? cs = some (c, rest)) :
    rest.length < cs.length := by
  cases cs with
  | nil => simp [escape?] at h
  | cons d tail =>
    simp only [escape?, Option.map_eq_some_iff, Prod.mk.injEq] at h
    obtain ⟨_, _, _, rfl⟩ := h
    simp only [List.length_drop, List.length_cons]
    omega

/-- Reads text on one line up to its closing quote. -/
def readQuoted (quote : Char) (cs : List Char) : Option (List Char × List Char) :=
  match cs with
  | [] => none
  | c :: rest =>
    if c = quote then some ([], rest)
    else if c = '\\' ∧ quote = '"' then
      match _h : escape? rest with
      | none => none
      | some (d, rest) => (readQuoted quote rest).map fun (content, rest) => (d :: content, rest)
    else if isPlain c then
      (readQuoted quote rest).map fun (content, rest) => (c :: content, rest)
    else none
termination_by cs.length
decreasing_by
  · have := length_of_escape? _h; simp only [List.length_cons]; omega
  · simp

/-- How many quotes, up to a limit, a text begins with. -/
def leadingQuotes (quote : Char) : (limit : Nat) → List Char → Nat
  | limit + 1, c :: cs => if c = quote then leadingQuotes quote limit cs + 1 else 0
  | _, _ => 0

/-- Reads text over several lines up to its closing quotes. -/
def readQuotedLines (quote : Char) (cs : List Char) : Option (List Char × List Char) :=
  match cs with
  | [] => none
  | c :: rest =>
    let add (more : Option (List Char × List Char)) (d : Char) :=
      more.map fun (content, rest) => (d :: content, rest)
    if c = quote then
      let quotes := leadingQuotes quote 5 (c :: rest)
      if 3 ≤ quotes then some (List.replicate (quotes - 3) quote, (c :: rest).drop quotes)
      else add (readQuotedLines quote rest) c
    else if c = '\\' ∧ quote = '"' then
      match _h : takeNewline? (skipBlanks rest) with
      | some after => readQuotedLines quote (skipBlankLines after)
      | none =>
        match _he : escape? rest with
        | none => none
        | some (d, rest) => add (readQuotedLines quote rest) d
    else
      match _hn : takeNewline? (c :: rest) with
      | some rest => add (readQuotedLines quote rest) '\n'
      | none => if isPlain c then add (readQuotedLines quote rest) c else none
termination_by cs.length
decreasing_by
  · simp
  · have h₁ := length_of_takeNewline? _h
    have h₂ := length_skipBlankLines_le after
    have h₃ := length_skipBlanks_le rest
    simp only [List.length_cons]; omega
  · have := length_of_escape? _he; simp only [List.length_cons]; omega
  · exact length_of_takeNewline? _hn
  · simp

/-- Reads text in quotes. -/
def readString? : List Char → Option (String × List Char)
  | [] => none
  | c :: rest =>
    if c = '"' ∨ c = '\'' then
      let found :=
        if leadingQuotes c 3 (c :: rest) = 3 then
          let body := rest.drop 2
          readQuotedLines c ((takeNewline? body).getD body)
        else readQuoted c rest
      found.map fun (content, rest) => (String.ofList content, rest)
    else none

end IconMarkup.Toml
