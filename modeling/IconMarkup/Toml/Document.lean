import IconMarkup.Toml.Section

/-!
# TOML documents

The table that a TOML text describes. The text is refused as a whole if it breaks a rule of the
grammar or defines a key twice.
-/

namespace IconMarkup.Toml

/-- Adds a section to the tables that the sections before it define. -/
def Section.define? (part : Section) (entries : Entries) : Option Entries :=
  match part.header with
  | .table path key => entries.defineTable? path key (definePairs? part.pairs)
  | .element path key => entries.defineElement? path key (definePairs? part.pairs)

/-- The table that a text describes. -/
def Table.ofText? (text : String) : Option Table := do
  let (pairs, sections) ← readText? text.toList
  let entries ← definePairs? pairs []
  let entries ← sections.foldlM (fun entries part => part.define? entries) entries
  return tableOf entries

end IconMarkup.Toml
