import IconMarkup.Toml.Value

/-!
# Records in settings

A record of the settings is written as a table of its fields, or as an array of their values in a
fixed order. Fields that are left out keep their value; fields that the record does not know are
skipped and reported; a value of a wrong kind makes the whole text unusable.
-/

namespace IconMarkup.Config

open IconMarkup.Toml

/-- A place in the settings: the names of the fields from the outermost on. -/
abbrev FieldPath := List String

/-- A place as it is shown to the user. -/
def FieldPath.display (path : FieldPath) : String :=
  String.intercalate "." path

/-- A reader of a value at a place. It gives what it reads and the unknown fields in the value. -/
abbrev Reader (α : Type) := FieldPath → Value → Option (α × List FieldPath)

/-- A field of a record of type `σ`. -/
structure Field (σ : Type) where
  /-- Its name. -/
  name : String
  /-- Reads the field into a record. -/
  read : σ → Reader σ

/-- The field that a reader of its values and a function that puts them into the record make. -/
def Field.of {σ α : Type} (name : String) (read : σ → Reader α) (put : σ → α → σ) : Field σ where
  name := name
  read record path value :=
    (read record path value).map fun (content, unknown) => (put record content, unknown)

/-- The name of the only field of a date that stands in place of a record. -/
def datetimeField : String := "$__toml_private_datetime"

/-- Reads the entries of a table into a record. -/
def readEntries {σ : Type} (fields : List (Field σ)) (path : FieldPath) :
    σ → Table → Option (σ × List FieldPath)
  | record, [] => some (record, [])
  | record, (key, value) :: rest => do
    let here := path ++ [key]
    let (record, unknown) ← match fields.find? (·.name == key) with
      | some field => field.read record here value
      | none => some (record, [here])
    let (record, more) ← readEntries fields path record rest
    return (record, unknown ++ more)

/-- Reads values in the order of the fields into a record. -/
def readPositions {σ : Type} (path : FieldPath) :
    (index : Nat) → List (Field σ) → σ → List Value → Option (σ × List FieldPath)
  | index, field :: fields, record, value :: values => do
    let (record, unknown) ← field.read record (path ++ [toString index]) value
    let (record, more) ← readPositions path (index + 1) fields record values
    return (record, unknown ++ more)
  | _, _, record, _ => some (record, [])

/-- Reads a record, from the values that it has already. -/
def readRecord {σ : Type} (fields : List (Field σ)) (record : σ) : Reader σ := fun path value =>
  match value with
  | .table entries => readEntries fields path record entries
  | .array values => readPositions path 0 fields record values
  | .datetime literal => readEntries fields path record [(datetimeField, .string literal)]
  | _ => none

/-- Reads a text. -/
def readText : Reader String := fun _ value =>
  match value with
  | .string content => some (content, [])
  | _ => none

/-- Reads a truth value. -/
def readSwitch : Reader Bool := fun _ value =>
  match value with
  | .boolean content => some (content, [])
  | _ => none

/-- Reads a list of texts. -/
def readTexts : Reader (List String) := fun path value =>
  match value with
  | .array values => do
    let found ← values.mapM (readText path)
    return (found.map (·.1), [])
  | _ => none

end IconMarkup.Config
