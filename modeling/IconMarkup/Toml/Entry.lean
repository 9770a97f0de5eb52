import IconMarkup.Toml.Value

/-!
# Tables under construction

While a text is read, a table remembers how it came about, because that decides what may still be
added to it: a table with a header of its own has no second header and is not extended by dotted
keys, a table made by dotted keys is extended by nothing else than dotted keys, and a table that is
only part of the path of a header can still get a header itself.
-/

namespace IconMarkup.Toml

/-- How a table came about. -/
inductive Origin where
  /-- By a header. -/
  | header
  /-- As a part of the path of a header. -/
  | implied
  /-- By a dotted key. -/
  | dotted
  deriving DecidableEq, Repr

/-- What a key stands for in a table under construction. -/
inductive Entry where
  /-- A value, which is complete. -/
  | value (value : Value)
  /-- A table. -/
  | table (origin : Origin) (entries : List (String × Entry))
  /-- The tables of headers in double brackets. -/
  | tables (elements : List (List (String × Entry)))
  deriving Repr

/-- The entries of a table under construction, in order. -/
abbrev Entries := List (String × Entry)

mutual

/-- The value of a complete entry. -/
def Entry.toValue : Entry → Value
  | .value value => value
  | .table _ entries => .table (tableOf entries)
  | .tables elements => .array (elementsOf elements)

/-- The values of complete entries. -/
def tableOf : List (String × Entry) → Table
  | [] => []
  | (key, entry) :: rest => (key, entry.toValue) :: tableOf rest

/-- The values of complete tables. -/
def elementsOf : List (List (String × Entry)) → List Value
  | [] => []
  | entries :: rest => .table (tableOf entries) :: elementsOf rest

end

namespace Entries

/-- Puts an entry in the place of the one with the same key, or at the end. -/
def put (key : String) (entry : Entry) : Entries → Entries
  | [] => [(key, entry)]
  | (other, old) :: rest =>
    if other = key then (key, entry) :: rest else (other, old) :: put key entry rest

/-- Adds an entry under a new key. -/
def add? (key : String) (entry : Entry) (entries : Entries) : Option Entries :=
  if (entries.lookup key).isSome then none else some (entries ++ [(key, entry)])

/-- Changes the table at a path by a function of its origin and its entries. Tables missing on the
way are made with origin `opened`; a path goes on in the last one of the tables of headers in double
brackets. Dotted keys do not lead through tables with headers. -/
def change? (opened : Origin) (f : Origin → Entries → Option Entries) :
    List String → Origin → Entries → Option Entries
  | [], origin, entries => f origin entries
  | key :: path, _, entries =>
    match entries.lookup key with
    | none => do
      let inner ← change? opened f path opened []
      return entries ++ [(key, .table opened inner)]
    | some (.value _) => none
    | some (.table origin inner) =>
      if opened = .dotted ∧ origin = .header then none
      else do
        let inner ← change? opened f path origin inner
        return put key (.table origin inner) entries
    | some (.tables elements) => do
      let inner ← change? opened f path .header (elements.getLast?.getD [])
      return put key (.tables (elements.dropLast ++ [inner])) entries

/-- Defines the value of a dotted key: the path of its table and the key in it. -/
def define? (path : List String) (key : String) (value : Value) (entries : Entries) :
    Option Entries :=
  change? .dotted
    (fun origin inner =>
      if path = [] ∨ origin = .dotted then add? key (.value value) inner else none)
    path .header entries

/-- Defines the table of a header, filled by a function of the entries that it has already. -/
def defineTable? (path : List String) (key : String) (fill : Entries → Option Entries)
    (entries : Entries) : Option Entries :=
  change? .implied
    (fun _ parent => do
      let known ← match parent.lookup key with
        | none => some []
        | some (.table .implied inner) => some inner
        | some _ => none
      return parent.filter (·.1 ≠ key) ++ [(key, .table .header (← fill known))])
    path .header entries

/-- Adds a table to the tables of headers in double brackets. -/
def defineElement? (path : List String) (key : String) (fill : Entries → Option Entries)
    (entries : Entries) : Option Entries :=
  change? .implied
    (fun _ parent => do
      let known ← match parent.lookup key with
        | none => some []
        | some (.tables elements) => some elements
        | some _ => none
      return put key (.tables (known ++ [← fill []])) parent)
    path .header entries

end Entries

end IconMarkup.Toml
