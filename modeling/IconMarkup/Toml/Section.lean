import IconMarkup.Toml.Entry
import IconMarkup.Toml.Moment
import IconMarkup.Toml.Number
import IconMarkup.Toml.Quoted

/-!
# Sections of a TOML text

A text is a sequence of sections, each with a header except the first one, and each section is a
sequence of keys with values. Arrays, inline tables and dotted keys nest to a limited depth.
-/

namespace IconMarkup.Toml

/-! ### Pairs and headers -/

/-- How deep arrays and inline tables nest, and how many parts a dotted key has, at most. -/
def nestingLimit : Nat := 79

/-- A dotted key with its value. -/
structure Pair where
  /-- The parts of the key before the last one. -/
  path : List String
  /-- The last part of the key. -/
  key : String
  /-- The value. -/
  value : Value
  deriving Repr

/-- The header of a section. -/
inductive Header where
  /-- A name in single brackets, which begins a table. -/
  | table (path : List String) (key : String)
  /-- A name in double brackets, which begins a further table of an array. -/
  | element (path : List String) (key : String)
  deriving DecidableEq, Repr

/-- A section. -/
structure Section where
  /-- Its header. -/
  header : Header
  /-- Its keys with their values. -/
  pairs : List Pair
  deriving Repr

/-! ### Keys -/

/-- A character of a key without quotes. -/
def isKeyChar (c : Char) : Bool :=
  c.isAlphanum || c == '-' || c == '_'

/-- Reads one part of a key. -/
def readPart? : List Char → Option (String × List Char)
  | [] => none
  | c :: rest =>
    if c = '"' ∨ c = '\'' then
      (readQuoted c rest).map fun (content, rest) => (String.ofList content, rest)
    else
      let part := (c :: rest).takeWhile isKeyChar
      if part.isEmpty then none
      else some (String.ofList part, (c :: rest).dropWhile isKeyChar)

/-- Reads the parts of a dotted key, with the blanks around them. -/
def readParts? : (limit : Nat) → List Char → Option (List String × List Char)
  | 0, _ => none
  | limit + 1, cs => do
    let (part, rest) ← readPart? (skipBlanks cs)
    match skipBlanks rest with
    | '.' :: rest =>
      let (parts, rest) ← readParts? limit rest
      return (part :: parts, rest)
    | rest => return ([part], rest)

/-- Reads a dotted key: the path of its table and the key in it. -/
def readKey? (cs : List Char) : Option ((List String × String) × List Char) := do
  let (parts, rest) ← readParts? nestingLimit cs
  return ((parts.dropLast, parts.getLastD ""), rest)

/-! ### Values -/

/-- A character of a value that is neither quoted nor in brackets. -/
def isBareChar (c : Char) : Bool :=
  !(isBlank c || c == '\n' || c == '\r' || c == '#' || c == ',' || c == ']' || c == '\x7d')

/-- The value that a word stands for. -/
def bareValue? (word : List Char) : Option Value :=
  if word == ['t', 'r', 'u', 'e'] then some (.boolean true)
  else if word == ['f', 'a', 'l', 's', 'e'] then some (.boolean false)
  else if isMoment word then some (.datetime (String.ofList word))
  else if isFloat word then some (.float (String.ofList word))
  else (integer? word).map .integer

/-- Reads a value that is neither quoted nor in brackets. A date and a time may have a space
between them. -/
def readBare? (cs : List Char) : Option (Value × List Char) :=
  let word := cs.takeWhile isBareChar
  let rest := cs.dropWhile isBareChar
  match rest with
  | ' ' :: after =>
    let time := after.takeWhile isBareChar
    if isDate word && isTimeWithOffset time then
      some (.datetime (String.ofList (word ++ ' ' :: time)), after.dropWhile isBareChar)
    else (bareValue? word).map (·, rest)
  | _ => (bareValue? word).map (·, rest)

/-- Reads the elements of an array up to its closing bracket. -/
def readElements? (readValue : List Char → Option (Value × List Char)) :
    (fuel : Nat) → List Char → Option (List Value × List Char)
  | 0, _ => none
  | fuel + 1, cs =>
    match skipLines cs with
    | ']' :: rest => some ([], rest)
    | cs => do
      let (value, rest) ← readValue cs
      match skipLines rest with
      | ',' :: rest =>
        let (values, rest) ← readElements? readValue fuel rest
        return (value :: values, rest)
      | ']' :: rest => return ([value], rest)
      | _ => none

/-- Reads a key, an equals sign and a value. -/
def readPair? (readValue : List Char → Option (Value × List Char)) (cs : List Char) :
    Option (Pair × List Char) := do
  let ((path, key), rest) ← readKey? cs
  match rest with
  | '=' :: rest =>
    let (value, rest) ← readValue (skipBlanks rest)
    return (⟨path, key, value⟩, rest)
  | _ => none

/-- Reads the keys and values of an inline table up to its closing brace. -/
def readInlinePairs? (readValue : List Char → Option (Value × List Char)) :
    (fuel : Nat) → List Char → Option (List Pair × List Char)
  | 0, _ => none
  | fuel + 1, cs => do
    let (pair, rest) ← readPair? readValue cs
    match skipBlanks rest with
    | ',' :: rest =>
      let (pairs, rest) ← readInlinePairs? readValue fuel rest
      return (pair :: pairs, rest)
    | '\x7d' :: rest => return ([pair], rest)
    | _ => none

/-- Defines keys with their values. -/
def definePairs? (pairs : List Pair) (entries : Entries) : Option Entries :=
  pairs.foldlM (fun entries pair => entries.define? pair.path pair.key pair.value) entries

/-- Reads a value in which brackets and braces nest to a limited depth. -/
def readValue? : (depth : Nat) → List Char → Option (Value × List Char)
  | 0, cs => readOpen? (fun _ => none) (fun _ => none) cs
  | depth + 1, cs =>
    readOpen?
      (fun rest => do
        let (values, rest) ← readElements? (readValue? depth) (rest.length + 1) rest
        return (.array values, rest))
      (fun rest => do
        match skipBlanks rest with
        | '\x7d' :: rest => return (.table [], rest)
        | _ =>
          let (pairs, rest) ← readInlinePairs? (readValue? depth) (rest.length + 1) rest
          return (.table (tableOf (← definePairs? pairs [])), rest))
      cs
where
  /-- Reads a value by what it begins with. -/
  readOpen? (array inlineTable : List Char → Option (Value × List Char)) :
      List Char → Option (Value × List Char)
    | '[' :: rest => array rest
    | '\x7b' :: rest => inlineTable rest
    | cs =>
      match cs.head? with
      | some '"' => (readString? cs).map fun (content, rest) => (.string content, rest)
      | some '\'' => (readString? cs).map fun (content, rest) => (.string content, rest)
      | _ => readBare? cs

/-! ### Sections -/

/-- Reads lines with keys and values, up to the next header. -/
def readPairs? : (fuel : Nat) → List Char → Option (List Pair × List Char)
  | 0, cs => some ([], cs)
  | fuel + 1, cs =>
    match skipLines cs with
    | [] => some ([], [])
    | '[' :: rest => some ([], '[' :: rest)
    | '#' :: rest => do
      let rest ← takeLineEnd? ('#' :: rest)
      return ([], rest)
    | cs => do
      let (pair, rest) ← readPair? (readValue? nestingLimit) cs
      let (pairs, rest) ← readPairs? fuel (← takeLineEnd? rest)
      return (pair :: pairs, rest)

/-- Reads a header and the rest of its line. -/
def readHeader? : List Char → Option (Header × List Char)
  | '[' :: '[' :: cs => do
    match ← readKey? cs with
    | ((path, key), ']' :: ']' :: rest) => return (.element path key, ← takeLineEnd? rest)
    | _ => none
  | '[' :: cs => do
    match ← readKey? cs with
    | ((path, key), ']' :: rest) => return (.table path key, ← takeLineEnd? rest)
    | _ => none
  | _ => none

/-- Reads sections up to the end of the text. -/
def readSections? : (fuel : Nat) → List Char → Option (List Section)
  | _, [] => some []
  | 0, _ => none
  | fuel + 1, cs => do
    let (header, rest) ← readHeader? cs
    let (pairs, rest) ← readPairs? (rest.length + 1) rest
    return ⟨header, pairs⟩ :: (← readSections? fuel rest)

/-- Reads a text: the keys before the first header, and the sections. A mark of the byte order at
the beginning is skipped. -/
def readText? (cs : List Char) : Option (List Pair × List Section) := do
  let cs := if cs.head? = some '\ufeff' then cs.tail else cs
  let (pairs, rest) ← readPairs? (cs.length + 1) cs
  return (pairs, ← readSections? (rest.length + 1) rest)

end IconMarkup.Toml
