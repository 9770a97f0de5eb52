import Mathlib.Data.List.Nodup
import IconMarkup.Config.SettingsText
import IconMarkup.Proofs.Toml.Keys

/-!
# Values of settings

Where the settings that a text gives come from. A setting has a place in the table of the text: the
name of its record, and below that its name, or its position if the record is written as an array.
Reading a record puts the value at the place of a field into the record and leaves all other fields
alone (`Field.Sets`, `Determines`), because the keys of a table are distinct. So each setting is the
value at its place, or else the default one (`gives_of_ofText?`).
-/

namespace IconMarkup.Toml

/-- The text that a value is. -/
def Value.text? : Value → Option String
  | .string content => some content
  | _ => none

/-- The texts that a value lists. -/
def Value.texts? : Value → Option (List String)
  | .array values => values.mapM Value.text?
  | _ => none

/-- The value of a field of a record: the one with its name in a table, the one at its position in
an array. -/
def Value.part? (name : String) (position : Nat) : Value → Option Value
  | .table entries => entries.lookup name
  | .array values => values[position]?
  | _ => none

end IconMarkup.Toml

namespace IconMarkup.Config

open Toml

/-! ### One field -/

section Fields

variable {σ α β : Type} {field : Field σ} {fields : List (Field σ)} {name : String}
  {get : σ → α} {value? : Value → Option α} {path : FieldPath} {record record' : σ}
  {unknown : List FieldPath}

/-- Whether a field puts what its value stands for into a component of the record, if it stands for
anything, and leaves the component as it is otherwise. -/
structure Field.Sets (field : Field σ) (get : σ → α) (value? : Value → Option α) : Prop where
  get_read : ∀ {path record value record' unknown}, value.WellKeyed →
    field.read record path value = some (record', unknown) →
      get record' = (value? value).getD (get record)

/-- Whether a field leaves a component of the record alone. -/
abbrev Field.Keeps (field : Field σ) (get : σ → α) : Prop :=
  field.Sets get fun _ => none

/-- A field made of a reader sets the component that its values are put into. -/
private theorem Field.sets_of {read : σ → Reader β} {put : σ → β → σ}
    (hread : ∀ {path record value found unknown}, value.WellKeyed →
      read record path value = some (found, unknown) →
        get (put record found) = (value? value).getD (get record)) :
    (Field.of name read put).Sets get value? := by
  refine ⟨fun hvalue h => ?_⟩
  obtain ⟨⟨found, unknown'⟩, hfound, heq⟩ := Option.map_eq_some_iff.mp h
  cases heq
  exact hread hvalue hfound

/-- A field leaves what its values are not put into. -/
private theorem Field.keeps_of {read : σ → Reader β} {put : σ → β → σ}
    (hput : ∀ record found, get (put record found) = get record) :
    (Field.of name read put).Keeps get :=
  Field.sets_of fun _ _ => hput _ _

/-! ### Records -/

/-- Whether the field with a name stands at a position of a record, puts what its value stands for
into a component, and is the only one to do so. -/
inductive Determines (name : String) (get : σ → α) (value? : Value → Option α) :
    Nat → List (Field σ) → Prop
  | here {field : Field σ} {rest : List (Field σ)} (hname : field.name = name)
      (hsets : field.Sets get value?)
      (hrest : ∀ other ∈ rest, other.name ≠ name ∧ other.Keeps get) :
      Determines name get value? 0 (field :: rest)
  | there {field : Field σ} {rest : List (Field σ)} {position : Nat} (hname : field.name ≠ name)
      (hkeeps : field.Keeps get) (hrest : Determines name get value? position rest) :
      Determines name get value? (position + 1) (field :: rest)

variable {position : Nat}

private theorem Determines.find_name (h : Determines name get value? position fields) :
    ∃ field, fields.find? (·.name == name) = some field ∧ field.Sets get value? := by
  induction h with
  | here hname hsets => exact ⟨_, List.find?_cons_of_pos (by simpa using hname), hsets⟩
  | there hname hkeeps _ ih =>
    obtain ⟨found, hfound, hsets⟩ := ih
    exact ⟨found, by rwa [List.find?_cons_of_neg (by simpa using hname)], hsets⟩

private theorem Determines.keeps_of_mem (h : Determines name get value? position fields)
    (hfield : field ∈ fields) (hname : field.name ≠ name) : field.Keeps get := by
  induction h with
  | here hfirst _ hrest =>
    rcases List.mem_cons.mp hfield with rfl | hfield
    · exact absurd hfirst hname
    · exact (hrest field hfield).2
  | there _ hkeeps _ ih =>
    rcases List.mem_cons.mp hfield with rfl | hfield
    · exact hkeeps
    · exact ih hfield

/-- Reads one entry of a table into a record. -/
def readEntry (fields : List (Field σ)) (path : FieldPath) (record : σ) (entry : String × Value) :
    Option (σ × List FieldPath) :=
  match fields.find? (·.name == entry.1) with
  | some field => field.read record path entry.2
  | none => some (record, [path])

/-- The first entry is read, and then the others. -/
private theorem exists_readEntry_of_readEntries_cons {entry : String × Value} {rest : Table}
    (h : readEntries fields path record (entry :: rest) = some (record', unknown)) :
    ∃ first, (∃ more, readEntry fields (path ++ [entry.1]) record entry = some (first, more)) ∧
      ∃ more, readEntries fields path first rest = some (record', more) := by
  obtain ⟨key, value⟩ := entry
  rw [readEntries] at h
  rcases hfield : fields.find? (·.name == key) with _ | field <;> rw [hfield] at h <;>
    obtain ⟨⟨first, unknown'⟩, hfirst, h⟩ := Option.bind_eq_some_iff.mp h <;>
    obtain ⟨⟨last, more⟩, hlast, heq⟩ := Option.bind_eq_some_iff.mp h <;>
    cases heq <;>
    exact ⟨first, ⟨unknown', by rwa [readEntry, hfield]⟩, more, hlast⟩

/-- Entries with other keys leave the component alone. -/
private theorem Determines.get_readEntry_of_ne (h : Determines name get value? position fields)
    {entry : String × Value} (hkey : entry.1 ≠ name) (hvalue : entry.2.WellKeyed)
    (hread : readEntry fields path record entry = some (record', unknown)) :
    get record' = get record := by
  rw [readEntry] at hread
  split at hread
  · rename_i field hfield
    have hname : field.name = entry.1 := by simpa using List.find?_some hfield
    exact (h.keeps_of_mem (List.mem_of_find?_eq_some hfield) (hname ▸ hkey)).get_read hvalue hread
  · cases hread
    rfl

/-- A component is the value of the entry with the name of its field. -/
theorem Determines.get_readEntries (h : Determines name get value? position fields)
    {entries : Table} (hkeys : (entries.map (·.1)).Nodup)
    (heach : ∀ entry ∈ entries, entry.2.WellKeyed)
    (hread : readEntries fields path record entries = some (record', unknown)) :
    get record' = ((entries.lookup name).bind value?).getD (get record) := by
  induction entries generalizing record unknown with
  | nil =>
    cases hread
    rfl
  | cons entry rest ih =>
    obtain ⟨hnew, hkeys⟩ := List.nodup_cons.mp hkeys
    obtain ⟨hvalue, heach⟩ := List.forall_mem_cons.mp heach
    obtain ⟨first, ⟨more, hfirst⟩, others, hlast⟩ := exists_readEntry_of_readEntries_cons hread
    rw [ih hkeys heach hlast]
    by_cases hkey : entry.1 = name
    · -- the name does not occur again
      have hnone : rest.lookup name = none := by
        refine List.lookup_eq_none_iff.mpr fun other hother => bne_iff_ne.mpr fun heq => hnew ?_
        exact List.mem_map.mpr ⟨other, hother, (hkey.trans heq).symm⟩
      obtain ⟨field, hfield, hsets⟩ := h.find_name
      rw [readEntry, hkey, hfield] at hfirst
      rw [hnone, ← hkey, List.lookup_cons_self, hsets.get_read hvalue hfirst]
      rfl
    · rw [h.get_readEntry_of_ne hkey hvalue hfirst, List.lookup_cons,
        beq_false_of_ne (Ne.symm hkey)]

/-- The first value is read into the first field, and then the others. -/
private theorem exists_read_of_readPositions_cons {index : Nat} {value : Value}
    {values : List Value} (h : readPositions path index (field :: fields) record (value :: values) =
      some (record', unknown)) :
    ∃ first, (∃ place more, field.read record place value = some (first, more)) ∧
      ∃ more, readPositions path (index + 1) fields first values = some (record', more) := by
  obtain ⟨⟨first, unknown'⟩, hfirst, h⟩ := Option.bind_eq_some_iff.mp h
  obtain ⟨⟨last, more⟩, hlast, heq⟩ := Option.bind_eq_some_iff.mp h
  cases heq
  exact ⟨first, ⟨_, unknown', hfirst⟩, more, hlast⟩

private theorem readPositions_nil {index : Nat}
    (h : readPositions path index fields record [] = some (record', unknown)) :
    record' = record := by
  cases fields <;> cases h <;> rfl

private theorem get_readPositions_of_keeps (h : ∀ field ∈ fields, field.Keeps get) {index : Nat}
    {values : List Value} (heach : ∀ value ∈ values, value.WellKeyed)
    (hread : readPositions path index fields record values = some (record', unknown)) :
    get record' = get record := by
  induction fields generalizing record unknown values index with
  | nil =>
    cases values <;> cases hread <;> rfl
  | cons field fields ih =>
    cases values with
    | nil => rw [readPositions_nil hread]
    | cons value values =>
      obtain ⟨hfield, hfields⟩ := List.forall_mem_cons.mp h
      obtain ⟨hvalue, heach⟩ := List.forall_mem_cons.mp heach
      obtain ⟨first, ⟨place, more, hfirst⟩, others, hlast⟩ :=
        exists_read_of_readPositions_cons hread
      rw [ih hfields heach hlast, hfield.get_read hvalue hfirst]
      rfl

/-- A component is the value at the position of its field. -/
theorem Determines.get_readPositions (h : Determines name get value? position fields)
    {index : Nat} {values : List Value} (heach : ∀ value ∈ values, value.WellKeyed)
    (hread : readPositions path index fields record values = some (record', unknown)) :
    get record' = ((values[position]?).bind value?).getD (get record) := by
  induction h generalizing record unknown values index with
  | here hname hsets hrest =>
    cases values with
    | nil =>
      rw [readPositions_nil hread]
      rfl
    | cons value values =>
      obtain ⟨hvalue, heach⟩ := List.forall_mem_cons.mp heach
      obtain ⟨first, ⟨place, more, hfirst⟩, others, hlast⟩ :=
        exists_read_of_readPositions_cons hread
      rw [get_readPositions_of_keeps (fun other hother => (hrest other hother).2) heach hlast,
        hsets.get_read hvalue hfirst]
      rfl
  | there hname hkeeps hrest ih =>
    cases values with
    | nil =>
      rw [readPositions_nil hread]
      rfl
    | cons value values =>
      obtain ⟨hvalue, heach⟩ := List.forall_mem_cons.mp heach
      obtain ⟨first, ⟨place, more, hfirst⟩, others, hlast⟩ :=
        exists_read_of_readPositions_cons hread
      rw [ih heach hlast, hkeeps.get_read hvalue hfirst]
      rfl

/-- A component of a record is the part of its value for the field. -/
theorem Determines.get_readRecord (h : Determines name get value? position fields)
    (hname : name ≠ datetimeField) {value : Value} (hvalue : value.WellKeyed)
    (hread : readRecord fields record path value = some (record', unknown)) :
    get record' = ((value.part? name position).bind value?).getD (get record) := by
  cases hvalue with
  | table distinct each => exact h.get_readEntries distinct each hread
  | array each => exact h.get_readPositions each hread
  | datetime literal =>
    -- a date reads as a table whose only key is the name of no field
    have hlookup : List.lookup name [(datetimeField, Value.string literal)] = none := by
      rw [List.lookup_cons, beq_false_of_ne hname]
      rfl
    have hkeys : ([(datetimeField, Value.string literal)].map (·.1)).Nodup :=
      List.nodup_singleton _
    rw [h.get_readEntries hkeys (by simpa using .string _) hread, hlookup]
    rfl
  | _ => cases hread

end Fields

/-! ### The settings -/

/-- The first part of class names that a table gives. -/
def givenPrefix? (table : Table) : Option String :=
  (table.lookup "icons").bind fun icons => (icons.part? "class_prefix" 0).bind Value.text?

/-- The further classes that a table gives. -/
def givenClasses? (table : Table) : Option (List String) :=
  (table.lookup "icons").bind fun icons => (icons.part? "additional_classes" 1).bind Value.texts?

/-- The tags that a table gives for subtrees to be left alone. -/
def givenSkips? (table : Table) : Option (List String) :=
  (table.lookup "render").bind fun render => (render.part? "skip_elements" 0).bind Value.texts?

/-- A tag stripped and in lower case. -/
def normalTag (tag : String) : String :=
  (Text.trim tag).toLower

/-- Whether settings are those of a table, if there is one: each one is the value in the table, or
else the default one. -/
structure Gives (table : Option Table) (settings : Settings) : Prop where
  classPrefix : settings.icons.classPrefix = (table.bind givenPrefix?).getD "fa"
  additional : settings.icons.additional = (table.bind givenClasses?).getD []
  skipElements : settings.render.skipElements =
    ((table.bind givenSkips?).map fun tags => tags.map normalTag).getD ["script", "style"]

theorem gives_none : Gives none {} :=
  ⟨rfl, rfl, rfl⟩

variable {path : FieldPath} {value : Value} {unknown : List FieldPath}

private theorem text?_of_readText {content : String}
    (h : readText path value = some (content, unknown)) :
    value.text? = some content := by
  cases value with
  | string content' =>
    cases h
    rfl
  | _ => cases h

private theorem mapM_text?_of_mapM_readText {values : List Value}
    {found : List (String × List FieldPath)} (h : values.mapM (readText path) = some found) :
    values.mapM Value.text? = some (found.map (·.1)) := by
  induction values generalizing found with
  | nil =>
    cases h
    rfl
  | cons value values ih =>
    rw [List.mapM_cons] at h
    obtain ⟨⟨first, unknown'⟩, hfirst, h⟩ := Option.bind_eq_some_iff.mp h
    obtain ⟨others, hothers, heq⟩ := Option.bind_eq_some_iff.mp h
    cases heq
    rw [List.mapM_cons, text?_of_readText hfirst, ih hothers]
    rfl

private theorem texts?_of_readTexts {contents : List String}
    (h : readTexts path value = some (contents, unknown)) : value.texts? = some contents := by
  cases value with
  | array values =>
    obtain ⟨found, hfound, heq⟩ := Option.bind_eq_some_iff.mp h
    cases heq
    exact mapM_text?_of_mapM_readText hfound
  | _ => cases h

private theorem determines_classPrefix :
    Determines "class_prefix" Icon.Classes.classPrefix Value.text? 0 classesFields := by
  refine .here rfl (Field.sets_of fun _ h => ?_) ?_
  · rw [text?_of_readText h]
    rfl
  · simpa using ⟨by decide, Field.keeps_of fun _ _ => rfl⟩

private theorem determines_additional :
    Determines "additional_classes" Icon.Classes.additional Value.texts? 1 classesFields := by
  refine .there (by decide) (Field.keeps_of fun _ _ => rfl) (.here rfl ?_ (by simp))
  refine Field.sets_of fun _ h => ?_
  rw [texts?_of_readTexts h]
  rfl

private theorem determines_skipElements :
    Determines "skip_elements" RenderSettings.skipElements Value.texts? 0 renderFields := by
  refine .here rfl (Field.sets_of fun _ h => ?_) ?_
  · rw [texts?_of_readTexts h]
    rfl
  · simpa using ⟨by decide, Field.keeps_of fun _ _ => rfl⟩

/-- A component of the classes of icon elements is a component of the settings. -/
theorem determines_icons {α : Type} {name : String} {get : Icon.Classes → α}
    {value? : Value → Option α} {position : Nat}
    (h : Determines name get value? position classesFields) (hname : name ≠ datetimeField) :
    Determines "icons" (fun settings : Settings => get settings.icons)
      (fun value => (value.part? name position).bind value?) 0 settingsFields := by
  refine .here rfl (Field.sets_of fun hvalue hread => ?_) ?_
  · exact h.get_readRecord hname hvalue hread
  · simpa using ⟨by decide, Field.keeps_of fun _ _ => rfl⟩

theorem determines_render {α : Type} {name : String} {get : RenderSettings → α}
    {value? : Value → Option α} {position : Nat}
    (h : Determines name get value? position renderFields) (hname : name ≠ datetimeField) :
    Determines "render" (fun settings : Settings => get settings.render)
      (fun value => (value.part? name position).bind value?) 1 settingsFields := by
  refine .there (by decide) (Field.keeps_of fun _ _ => rfl) (.here rfl ?_ (by simp))
  exact Field.sets_of fun hvalue hread => h.get_readRecord hname hvalue hread

/-- The settings that a text gives are those of its table. -/
theorem gives_of_ofText? {text : String} {settings : Settings}
    (h : Settings.ofText? text = some (settings, unknown)) :
    ∃ table, Table.ofText? text = some table ∧ Gives (some table) settings := by
  obtain ⟨table, htable, h⟩ := Option.bind_eq_some_iff.mp h
  obtain ⟨⟨read, unknown'⟩, hread, heq⟩ := Option.bind_eq_some_iff.mp h
  cases heq
  refine ⟨table, htable, ?_⟩
  cases wellKeyed_ofText? htable with
  | table distinct each =>
    refine ⟨?_, ?_, ?_⟩
    · exact (determines_icons determines_classPrefix (by decide)).get_readEntries distinct each
        hread
    · exact (determines_icons determines_additional (by decide)).get_readEntries distinct each hread
    · have hskips := (determines_render determines_skipElements (by decide)).get_readEntries
        distinct each hread
      dsimp only at hskips
      change read.render.skipElements.map normalTag = _
      rw [hskips, Option.bind_some]
      change ((givenSkips? table).getD _).map normalTag = _
      rcases givenSkips? table with _ | tags
      · decide +kernel
      · rfl

end IconMarkup.Config
