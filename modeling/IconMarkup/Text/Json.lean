/-!
# JSON output

Texts, sequences and records written as JSON, on one line or with one element per line. Only quotes,
backslashes and control characters are escaped.
-/

namespace IconMarkup.Text

/-- A value to be written. -/
inductive Json where
  /-- A text. -/
  | string (content : String)
  /-- A sequence. -/
  | array (elements : List Json)
  /-- A record with its fields in order. -/
  | object (fields : List (String × Json))
  deriving Repr

namespace Json

/-- A hexadecimal digit. -/
def hexDigit (n : Nat) : Char :=
  if n < 10 then Char.ofNat ('0'.toNat + n) else Char.ofNat ('a'.toNat + (n - 10))

/-- How a character is written inside quotes. -/
def escapeChar (c : Char) : List Char :=
  match c with
  | '"' => ['\\', '"']
  | '\\' => ['\\', '\\']
  | '\x08' => ['\\', 'b']
  | '\t' => ['\\', 't']
  | '\n' => ['\\', 'n']
  | '\x0c' => ['\\', 'f']
  | '\r' => ['\\', 'r']
  | c =>
    if c < ' ' then ['\\', 'u', '0', '0', hexDigit (c.toNat / 16), hexDigit (c.toNat % 16)]
    else [c]

/-- A text in quotes. -/
def quote (content : String) : String :=
  "\"" ++ String.ofList (content.toList.flatMap escapeChar) ++ "\""

/-- Texts between two brackets with commas between them. -/
def enclose (opening closing : String) (parts : List String) : String :=
  opening ++ String.intercalate "," parts ++ closing

mutual

/-- The value on one line. -/
def compact : Json → String
  | .string content => quote content
  | .array elements => enclose "[" "]" (compactAll elements)
  | .object fields => enclose "\x7b" "\x7d" (compactFields fields)

/-- Each value on one line. -/
def compactAll : List Json → List String
  | [] => []
  | value :: rest => value.compact :: compactAll rest

/-- Each field on one line. -/
def compactFields : List (String × Json) → List String
  | [] => []
  | (name, value) :: rest => (quote name ++ ":" ++ value.compact) :: compactFields rest

end

/-- The beginning of a line at a depth. -/
def lineStart (depth : Nat) : String :=
  "\n" ++ String.ofList (List.replicate (2 * depth) ' ')

/-- Texts between two brackets, each on a line of its own. -/
def encloseLines (depth : Nat) (opening closing : String) (parts : List String) : String :=
  if parts.isEmpty then opening ++ closing
  else opening ++ String.intercalate "," (parts.map (lineStart (depth + 1) ++ ·)) ++
    lineStart depth ++ closing

mutual

/-- The value with one element per line, at a depth. -/
def prettyAt (depth : Nat) : Json → String
  | .string content => quote content
  | .array elements => encloseLines depth "[" "]" (prettyAll (depth + 1) elements)
  | .object fields => encloseLines depth "\x7b" "\x7d" (prettyFields (depth + 1) fields)

/-- Each value with one element per line. -/
def prettyAll (depth : Nat) : List Json → List String
  | [] => []
  | value :: rest => value.prettyAt depth :: prettyAll depth rest

/-- Each field with one element per line. -/
def prettyFields (depth : Nat) : List (String × Json) → List String
  | [] => []
  | (name, value) :: rest =>
    (quote name ++ ": " ++ value.prettyAt depth) :: prettyFields depth rest

end

/-- The value with one element per line. -/
def pretty (value : Json) : String :=
  value.prettyAt 0

end Json

end IconMarkup.Text
