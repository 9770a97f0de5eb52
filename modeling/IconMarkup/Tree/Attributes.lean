/-!
# Attribute lists

The attributes of an element: names with their values, each name once, in the order in which the
names were first set. Setting a name again replaces its value in place.
-/

namespace IconMarkup

/-- An ordered list of attributes. -/
structure Attributes where
  /-- Names and values in the order in which the names were first set. -/
  entries : List (String × String)
  deriving DecidableEq, Repr

namespace Attributes

/-- No attributes. -/
def empty : Attributes := ⟨[]⟩

/-- The value of a name. -/
def get? (attributes : Attributes) (name : String) : Option String :=
  (attributes.entries.find? (·.1 = name)).map (·.2)

/-- Replaces the value of the first entry with this name, or adds an entry at the end. -/
def setEntry (name value : String) : List (String × String) → List (String × String)
  | [] => [(name, value)]
  | entry :: rest =>
    if entry.1 = name then (name, value) :: rest else entry :: setEntry name value rest

/-- Sets a name to a value, in its place if it has one and last otherwise. -/
def set (attributes : Attributes) (name value : String) : Attributes :=
  ⟨setEntry name value attributes.entries⟩

/-- Sets each name of the list in turn. -/
def ofList (entries : List (String × String)) : Attributes :=
  entries.foldl (fun attributes entry => attributes.set entry.1 entry.2) empty

/-- The names and values, in order. -/
def toList (attributes : Attributes) : List (String × String) :=
  attributes.entries

@[simp]
theorem toList_empty : empty.toList = [] := rfl

@[simp]
theorem ofList_nil : ofList [] = empty := rfl

/-- A new name is set at the end. -/
theorem setEntry_of_notMem {name value : String} {entries : List (String × String)}
    (h : name ∉ entries.map (·.1)) :
    setEntry name value entries = entries ++ [(name, value)] := by
  induction entries with
  | nil => rfl
  | cons entry rest ih =>
    rw [List.map_cons, List.mem_cons, not_or] at h
    rw [setEntry, if_neg (Ne.symm h.1), ih h.2, List.cons_append]

/-- Distinct names are set one after another, in the order of the list. -/
theorem foldl_set_of_nodup {before entries : List (String × String)}
    (h : ((before ++ entries).map (·.1)).Nodup) :
    entries.foldl (fun attributes entry => attributes.set entry.1 entry.2) (mk before) =
      ⟨before ++ entries⟩ := by
  induction entries generalizing before with
  | nil => simp
  | cons entry rest ih =>
    have hnew : entry.1 ∉ before.map (·.1) := by
      rw [List.map_append, List.nodup_append] at h
      exact fun hmem => h.2.2 _ hmem _ (by simp) rfl
    rw [List.foldl_cons, set, setEntry_of_notMem hnew, ih (by simpa using h)]
    simp

/-- Names that are set once each stand in the order in which they were set. -/
theorem ofList_eq_of_nodup {entries : List (String × String)} (h : (entries.map (·.1)).Nodup) :
    ofList entries = ⟨entries⟩ :=
  foldl_set_of_nodup h

end Attributes

end IconMarkup
