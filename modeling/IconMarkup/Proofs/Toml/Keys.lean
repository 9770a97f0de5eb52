import Mathlib.Data.List.Nodup
import IconMarkup.Toml.Document

/-!
# Keys of TOML documents

A TOML text that is accepted defines each key once: the keys of its table are distinct, and so are
those of every table inside it, however the tables came about (`wellKeyed_ofText?`). Each way to
add to a table under construction keeps this, because it changes an entry in its place, or adds one
whose key was not there.
-/

namespace IconMarkup.Toml

/-! ### Distinct keys -/

/-- Whether the keys of every table in a value are distinct. -/
inductive Value.WellKeyed : Value → Prop
  | string (content : String) : WellKeyed (.string content)
  | integer (value : Int) : WellKeyed (.integer value)
  | float (literal : String) : WellKeyed (.float literal)
  | boolean (value : Bool) : WellKeyed (.boolean value)
  | datetime (literal : String) : WellKeyed (.datetime literal)
  | array {elements : List Value} (each : ∀ value ∈ elements, value.WellKeyed) :
    WellKeyed (.array elements)
  | table {entries : Table} (distinct : (entries.map (·.1)).Nodup)
    (each : ∀ entry ∈ entries, entry.2.WellKeyed) : WellKeyed (.table entries)

mutual

/-- Whether the keys of every table in an entry under construction are distinct. -/
inductive Entry.WellKeyed : Entry → Prop
  | value {value : Value} (h : value.WellKeyed) : Entry.WellKeyed (.value value)
  | table {origin : Origin} {entries : Entries} (h : Entries.WellKeyed entries) :
    Entry.WellKeyed (.table origin entries)
  | tables {elements : List Entries} (each : ∀ entries ∈ elements, Entries.WellKeyed entries) :
    Entry.WellKeyed (.tables elements)

/-- Whether the keys of a table under construction and of every table in it are distinct. -/
inductive Entries.WellKeyed : Entries → Prop
  | mk {entries : Entries} (distinct : (entries.map (·.1)).Nodup)
    (each : ∀ entry ∈ entries, entry.2.WellKeyed) : Entries.WellKeyed entries

end

/-- A table has the keys of its entries. -/
private theorem map_fst_tableOf (entries : Entries) :
    (tableOf entries).map (·.1) = entries.map (·.1) := by
  induction entries with
  | nil => rw [tableOf, List.map_nil, List.map_nil]
  | cons listed rest ih => rw [tableOf, List.map_cons, List.map_cons, ih]

mutual

/-- A complete entry keeps its keys. -/
private theorem Entry.WellKeyed.toValue :
    ∀ {entry : Entry}, entry.WellKeyed → entry.toValue.WellKeyed
  | .value value, .value h => by rwa [Entry.toValue]
  | .table origin entries, .table (.mk distinct each) => by
    rw [Entry.toValue]
    exact .table (by rwa [map_fst_tableOf]) (wellKeyed_of_mem_tableOf each)
  | .tables elements, .tables each => by
    rw [Entry.toValue]
    exact .array (wellKeyed_of_mem_elementsOf each)

/-- The values of complete entries keep their keys. -/
private theorem wellKeyed_of_mem_tableOf :
    ∀ {entries : Entries}, (∀ entry ∈ entries, entry.2.WellKeyed) →
      ∀ entry ∈ tableOf entries, entry.2.WellKeyed
  | [], _ => by simp [tableOf]
  | (key, entry) :: rest, h => by
    rw [List.forall_mem_cons] at h
    rw [tableOf, List.forall_mem_cons]
    exact ⟨h.1.toValue, wellKeyed_of_mem_tableOf h.2⟩

/-- The values of complete tables keep their keys. -/
private theorem wellKeyed_of_mem_elementsOf :
    ∀ {elements : List Entries}, (∀ entries ∈ elements, entries.WellKeyed) →
      ∀ value ∈ elementsOf elements, value.WellKeyed
  | [], _ => by simp [elementsOf]
  | entries :: rest, h => by
    rw [List.forall_mem_cons] at h
    obtain ⟨⟨distinct, each⟩, hrest⟩ := h
    rw [elementsOf, List.forall_mem_cons]
    exact ⟨.table (by rwa [map_fst_tableOf]) (wellKeyed_of_mem_tableOf each),
      wellKeyed_of_mem_elementsOf hrest⟩

end

/-- What is complete is a table with distinct keys. -/
private theorem Entries.WellKeyed.tableOf {entries : Entries} (h : entries.WellKeyed) :
    (Value.table (tableOf entries)).WellKeyed := by
  obtain ⟨distinct, each⟩ := h
  exact .table (by rwa [map_fst_tableOf]) (wellKeyed_of_mem_tableOf each)

/-! ### Adding to a table -/

namespace Entries

variable {entries entries' : Entries} {key : String} {entry : Entry}

private theorem wellKeyed_nil : WellKeyed [] := .mk List.nodup_nil (List.forall_mem_nil _)

/-- What is found under a key is well keyed with the entries around it. -/
private theorem WellKeyed.of_lookup (h : entries.WellKeyed)
    (hlookup : entries.lookup key = some entry) :
    entry.WellKeyed := by
  obtain ⟨before, after, rfl, -⟩ := List.lookup_eq_some_iff.mp hlookup
  obtain ⟨-, each⟩ := h
  exact each (key, entry) (by simp)

/-- An entry with a new key may be added. -/
private theorem WellKeyed.concat (h : entries.WellKeyed) (hnew : entries.lookup key = none)
    (hentry : entry.WellKeyed) : WellKeyed (entries ++ [(key, entry)]) := by
  obtain ⟨distinct, each⟩ := h
  refine .mk ?_ (List.forall_mem_append.mpr ⟨each, by simpa using hentry⟩)
  rw [List.map_append, List.map_singleton, List.nodup_append]
  refine ⟨distinct, List.nodup_singleton _, fun other hother found hfound heq => ?_⟩
  obtain ⟨listed, hlisted, rfl⟩ := List.mem_map.mp hother
  have hne := List.lookup_eq_none_iff.mp hnew listed hlisted
  simp [heq, List.mem_singleton.mp hfound] at hne

/-- Putting an entry adds its key at the end, unless the key is there. -/
private theorem map_fst_put (key : String) (entry : Entry) (entries : Entries) :
    (put key entry entries).map (·.1) =
      if key ∈ entries.map (·.1) then entries.map (·.1) else entries.map (·.1) ++ [key] := by
  induction entries with
  | nil => simp [put]
  | cons listed rest ih =>
    obtain ⟨other, old⟩ := listed
    by_cases hkey : other = key
    · simp [put, hkey]
    · rw [put, if_neg hkey, List.map_cons, ih]
      simp only [List.map_cons, List.mem_cons, Ne.symm hkey, false_or, List.cons_append]
      split <;> rfl

private theorem mem_put {listed : String × Entry} (h : listed ∈ put key entry entries) :
    listed = (key, entry) ∨ listed ∈ entries := by
  induction entries with
  | nil => exact .inl (List.mem_singleton.mp h)
  | cons first rest ih =>
    obtain ⟨other, old⟩ := first
    rw [put] at h
    split at h
    · exact (List.mem_cons.mp h).imp_right (List.mem_cons_of_mem _)
    · rcases List.mem_cons.mp h with rfl | hrest
      · exact .inr (List.mem_cons_self ..)
      · exact (ih hrest).imp_right (List.mem_cons_of_mem _)

/-- An entry may be put in the place of another one. -/
theorem WellKeyed.put (h : entries.WellKeyed) (hentry : entry.WellKeyed) :
    WellKeyed (put key entry entries) := by
  obtain ⟨distinct, each⟩ := h
  refine .mk ?_ fun listed hlisted => ?_
  · rw [map_fst_put]
    split
    · exact distinct
    · rename_i hnew
      exact List.nodup_append.mpr ⟨distinct, List.nodup_singleton _,
        fun other hother found hfound heq => hnew (List.mem_singleton.mp hfound ▸ heq ▸ hother)⟩
  · rcases mem_put hlisted with rfl | hold
    · exact hentry
    · exact each listed hold

/-- Changing a table at a path keeps the keys of all tables distinct, if the change itself does. -/
private theorem WellKeyed.change? {opened : Origin} {f : Origin → Entries → Option Entries}
    (hf : ∀ {origin inner inner'}, WellKeyed inner → f origin inner = some inner' →
      inner'.WellKeyed) {path : List String} {origin : Origin} (h : entries.WellKeyed)
    (hchange : change? opened f path origin entries = some entries') : entries'.WellKeyed := by
  induction path generalizing origin entries entries' with
  | nil => exact hf h hchange
  | cons key path ih =>
    rw [Entries.change?] at hchange
    split at hchange
    · rename_i hnew
      obtain ⟨inner, hinner, heq⟩ := Option.bind_eq_some_iff.mp hchange
      cases heq
      exact h.concat hnew (.table (ih wellKeyed_nil hinner))
    · cases hchange
    · rename_i inner hlookup
      split at hchange
      · cases hchange
      · obtain ⟨inner', hinner, heq⟩ := Option.bind_eq_some_iff.mp hchange
        cases heq
        cases h.of_lookup hlookup with
        | table hold => exact h.put (.table (ih hold hinner))
    · rename_i elements hlookup
      obtain ⟨inner, hinner, heq⟩ := Option.bind_eq_some_iff.mp hchange
      cases heq
      cases h.of_lookup hlookup with
      | tables each =>
        -- the path goes on in the last element, if there is one
        have hlast : WellKeyed (elements.getLast?.getD []) := by
          rcases hlast : elements.getLast? with _ | last
          · exact wellKeyed_nil
          · exact each last (List.mem_of_getLast? hlast)
        refine h.put (.tables (List.forall_mem_append.mpr ⟨fun other hother => ?_, ?_⟩))
        · exact each other ((List.dropLast_sublist elements).subset hother)
        · simpa using ih hlast hinner

/-- Defining a value under a dotted key keeps keys distinct on every level. -/
theorem WellKeyed.define? {path : List String} {value : Value} (h : entries.WellKeyed)
    (hvalue : value.WellKeyed) (hdefine : define? path key value entries = some entries') :
    entries'.WellKeyed := by
  refine h.change? (fun {origin inner inner'} hinner hf => ?_) hdefine
  rw [add?] at hf
  split at hf
  · split at hf
    · cases hf
    · rename_i hnew
      cases hf
      exact hinner.concat (Option.not_isSome_iff_eq_none.mp hnew) (.value hvalue)
  · cases hf

/-- Leaving out entries keeps keys distinct. -/
private theorem WellKeyed.filter (h : entries.WellKeyed) (keeps : String × Entry → Bool) :
    WellKeyed (entries.filter keeps) := by
  obtain ⟨distinct, each⟩ := h
  exact .mk ((List.filter_sublist.map _).nodup distinct) fun listed hlisted =>
    each listed (List.mem_of_mem_filter hlisted)

section Fill

variable {path : List String} {fill : Entries → Option Entries}
  (hfill : ∀ {inner inner'}, WellKeyed inner → fill inner = some inner' → inner'.WellKeyed)

include hfill

/-- Opening a table keeps keys distinct. -/
theorem WellKeyed.defineTable? (h : entries.WellKeyed)
    (hdefine : defineTable? path key fill entries = some entries') : entries'.WellKeyed := by
  refine h.change? (fun {origin parent parent'} hparent hf => ?_) hdefine
  -- the table is filled from what the path of another header may have put there
  have hnext : ∀ {known : Entries}, known.WellKeyed →
      ((fill known).bind fun filled =>
        some (parent.filter (·.1 ≠ key) ++ [(key, .table .header filled)])) = some parent' →
      parent'.WellKeyed := fun hknown hf => by
    obtain ⟨filled, hfilled, heq⟩ := Option.bind_eq_some_iff.mp hf
    cases heq
    refine (hparent.filter _).concat ?_ (.table (hfill hknown hfilled))
    refine List.lookup_eq_none_iff.mpr fun listed hlisted => ?_
    have hne : listed.1 ≠ key := by simpa using (List.mem_filter.mp hlisted).2
    exact bne_iff_ne.mpr hne.symm
  dsimp only at hf
  split at hf
  · exact hnext wellKeyed_nil hf
  · rename_i hlookup
    cases hparent.of_lookup hlookup with
    | table hold => exact hnext hold hf
  · cases hf

/-- Adding a table to an array of tables keeps keys distinct. -/
theorem WellKeyed.defineElement? (h : entries.WellKeyed)
    (hdefine : defineElement? path key fill entries = some entries') : entries'.WellKeyed := by
  refine h.change? (fun {origin parent parent'} hparent hf => ?_) hdefine
  have hnext : ∀ {known : List Entries}, (∀ inner ∈ known, WellKeyed inner) →
      ((fill []).bind fun filled =>
        some (Entries.put key (.tables (known ++ [filled])) parent)) = some parent' →
      parent'.WellKeyed := fun hknown hf => by
    obtain ⟨filled, hfilled, heq⟩ := Option.bind_eq_some_iff.mp hf
    cases heq
    refine hparent.put (.tables (List.forall_mem_append.mpr ⟨hknown, ?_⟩))
    simpa using hfill wellKeyed_nil hfilled
  dsimp only at hf
  split at hf
  · exact hnext (List.forall_mem_nil _) hf
  · rename_i hlookup
    cases hparent.of_lookup hlookup with
    | tables each => exact hnext each hf
  · cases hf

end Fill

end Entries

/-- Defining the pairs of a section in turn keeps keys distinct. -/
private theorem Entries.WellKeyed.definePairs? {pairs : List Pair} {entries entries' : Entries}
    (h : entries.WellKeyed) (hpairs : ∀ pair ∈ pairs, pair.value.WellKeyed)
    (hdefine : definePairs? pairs entries = some entries') : entries'.WellKeyed := by
  induction pairs generalizing entries with
  | nil =>
    cases hdefine
    exact h
  | cons pair rest ih =>
    obtain ⟨hpair, hrest⟩ := List.forall_mem_cons.mp hpairs
    rw [Toml.definePairs?, List.foldlM_cons] at hdefine
    obtain ⟨next, hnext, hothers⟩ := Option.bind_eq_some_iff.mp hdefine
    exact ih (h.define? hpair hnext) hrest hothers

/-! ### Reading -/

section

variable {readValue : List Char → Option (Value × List Char)}
  (hvalue : ∀ {cs value rest}, readValue cs = some (value, rest) → value.WellKeyed)

include hvalue

/-- The elements of an array are read with distinct keys, if each value is. -/
private theorem wellKeyed_of_readElements? {fuel : Nat} {cs rest : List Char} {values : List Value}
    (h : readElements? readValue fuel cs = some (values, rest)) :
    ∀ value ∈ values, value.WellKeyed := by
  induction fuel generalizing cs values with
  | zero => cases h
  | succ fuel ih =>
    rw [readElements?] at h
    split at h
    · cases h
      exact List.forall_mem_nil _
    · obtain ⟨⟨first, rest'⟩, hfirst, h⟩ := Option.bind_eq_some_iff.mp h
      dsimp only at h
      split at h
      · obtain ⟨⟨others, rest''⟩, hothers, heq⟩ := Option.bind_eq_some_iff.mp h
        cases heq
        exact List.forall_mem_cons.mpr ⟨hvalue hfirst, ih hothers⟩
      · cases h
        simpa using hvalue hfirst
      · cases h

private theorem wellKeyed_of_readPair? {cs rest : List Char} {pair : Pair}
    (h : readPair? readValue cs = some (pair, rest)) : pair.value.WellKeyed := by
  obtain ⟨⟨⟨path, key⟩, rest'⟩, -, h⟩ := Option.bind_eq_some_iff.mp h
  dsimp only at h
  split at h
  · obtain ⟨⟨value, rest''⟩, hread, heq⟩ := Option.bind_eq_some_iff.mp h
    cases heq
    exact hvalue hread
  · cases h

/-- The pairs of an inline table are read with distinct keys, if each value is. -/
private theorem wellKeyed_of_readInlinePairs? {fuel : Nat} {cs rest : List Char} {pairs : List Pair}
    (h : readInlinePairs? readValue fuel cs = some (pairs, rest)) :
    ∀ pair ∈ pairs, pair.value.WellKeyed := by
  induction fuel generalizing cs pairs with
  | zero => cases h
  | succ fuel ih =>
    obtain ⟨⟨first, rest'⟩, hfirst, h⟩ := Option.bind_eq_some_iff.mp h
    have hpair := wellKeyed_of_readPair? hvalue hfirst
    dsimp only at h
    split at h
    · obtain ⟨⟨others, rest''⟩, hothers, heq⟩ := Option.bind_eq_some_iff.mp h
      cases heq
      exact List.forall_mem_cons.mpr ⟨hpair, ih hothers⟩
    · cases h
      simpa using hpair
    · cases h

end

private theorem wellKeyed_of_bareValue? {word : List Char} {value : Value}
    (h : bareValue? word = some value) : value.WellKeyed := by
  rw [bareValue?] at h
  split at h
  · cases h
    exact .boolean _
  split at h
  · cases h
    exact .boolean _
  split at h
  · cases h
    exact .datetime _
  split at h
  · cases h
    exact .float _
  · obtain ⟨number, -, rfl⟩ := Option.map_eq_some_iff.mp h
    exact .integer _

private theorem wellKeyed_of_readBare? {cs rest : List Char} {value : Value}
    (h : readBare? cs = some (value, rest)) : value.WellKeyed := by
  have hword : ∀ {word after : List Char},
      (bareValue? word).map (·, after) = some (value, rest) → value.WellKeyed := fun h => by
    obtain ⟨found, hfound, heq⟩ := Option.map_eq_some_iff.mp h
    cases heq
    exact wellKeyed_of_bareValue? hfound
  simp only [readBare?] at h
  split at h
  · split at h
    · cases h
      exact .datetime _
    · exact hword h
  · exact hword h

/-- A value that begins with any character is read with distinct keys, if arrays and inline tables
are. -/
private theorem wellKeyed_of_readOpen? {array inlineTable : List Char → Option (Value × List Char)}
    (harray : ∀ {cs value rest}, array cs = some (value, rest) → value.WellKeyed)
    (htable : ∀ {cs value rest}, inlineTable cs = some (value, rest) → value.WellKeyed)
    {cs rest : List Char} {value : Value}
    (h : readValue?.readOpen? array inlineTable cs = some (value, rest)) : value.WellKeyed := by
  have hstring : ∀ {cs : List Char},
      ((readString? cs).map fun read => (Value.string read.1, read.2)) =
        some (value, rest) → value.WellKeyed := fun h => by
    obtain ⟨read, -, heq⟩ := Option.map_eq_some_iff.mp h
    cases heq
    exact .string _
  rw [readValue?.readOpen?.eq_def] at h
  split at h
  · exact harray h
  · exact htable h
  · split at h
    · exact hstring h
    · exact hstring h
    · exact wellKeyed_of_readBare? h

/-- The keys of every table in a value that is read are distinct. -/
theorem wellKeyed_of_readValue? {depth : Nat} {cs rest : List Char} {value : Value}
    (h : readValue? depth cs = some (value, rest)) : value.WellKeyed := by
  induction depth generalizing cs value rest with
  | zero => exact wellKeyed_of_readOpen? (by simp) (by simp) h
  | succ depth ih =>
    rw [readValue?] at h
    refine wellKeyed_of_readOpen? (fun harray => ?_) (fun htable => ?_) h
    · obtain ⟨⟨values, rest'⟩, hvalues, heq⟩ := Option.bind_eq_some_iff.mp harray
      cases heq
      exact .array (wellKeyed_of_readElements? ih hvalues)
    · dsimp only at htable
      split at htable
      · cases htable
        exact .table List.nodup_nil (List.forall_mem_nil _)
      · obtain ⟨⟨pairs, rest'⟩, hpairs, htable⟩ := Option.bind_eq_some_iff.mp htable
        obtain ⟨entries, hentries, heq⟩ := Option.bind_eq_some_iff.mp htable
        cases heq
        exact (Entries.wellKeyed_nil.definePairs? (wellKeyed_of_readInlinePairs? ih hpairs)
          hentries).tableOf

private theorem wellKeyed_of_readPairs? {fuel : Nat} {cs rest : List Char} {pairs : List Pair}
    (h : readPairs? fuel cs = some (pairs, rest)) : ∀ pair ∈ pairs, pair.value.WellKeyed := by
  induction fuel generalizing cs pairs with
  | zero =>
    cases h
    exact List.forall_mem_nil _
  | succ fuel ih =>
    rw [readPairs?] at h
    split at h
    · cases h
      exact List.forall_mem_nil _
    · cases h
      exact List.forall_mem_nil _
    · obtain ⟨rest', -, heq⟩ := Option.bind_eq_some_iff.mp h
      cases heq
      exact List.forall_mem_nil _
    · obtain ⟨⟨pair, rest'⟩, hpair, h⟩ := Option.bind_eq_some_iff.mp h
      obtain ⟨after, -, h⟩ := Option.bind_eq_some_iff.mp h
      obtain ⟨⟨others, rest''⟩, hothers, heq⟩ := Option.bind_eq_some_iff.mp h
      cases heq
      exact List.forall_mem_cons.mpr
        ⟨wellKeyed_of_readPair? wellKeyed_of_readValue? hpair, ih hothers⟩

/-- All values of a text are read with distinct keys. -/
theorem wellKeyed_of_readSections? {fuel : Nat} {cs : List Char} {sections : List Section}
    (h : readSections? fuel cs = some sections) :
    ∀ part ∈ sections, ∀ pair ∈ part.pairs, pair.value.WellKeyed := by
  induction fuel generalizing cs sections with
  | zero =>
    cases cs with
    | nil =>
      cases h
      exact List.forall_mem_nil _
    | cons c cs => cases h
  | succ fuel ih =>
    cases cs with
    | nil =>
      cases h
      exact List.forall_mem_nil _
    | cons c cs =>
      obtain ⟨⟨header, rest⟩, -, h⟩ := Option.bind_eq_some_iff.mp h
      obtain ⟨⟨pairs, rest'⟩, hpairs, h⟩ := Option.bind_eq_some_iff.mp h
      obtain ⟨others, hothers, heq⟩ := Option.bind_eq_some_iff.mp h
      cases heq
      exact List.forall_mem_cons.mpr ⟨wellKeyed_of_readPairs? hpairs, ih hothers⟩

private theorem Entries.WellKeyed.define_section {part : Section} {entries entries' : Entries}
    (h : entries.WellKeyed) (hpairs : ∀ pair ∈ part.pairs, pair.value.WellKeyed)
    (hdefine : part.define? entries = some entries') : entries'.WellKeyed := by
  rw [Section.define?] at hdefine
  split at hdefine
  · exact h.defineTable? (fun hinner => hinner.definePairs? hpairs) hdefine
  · exact h.defineElement? (fun hinner => hinner.definePairs? hpairs) hdefine

/-- Defining the sections of a text in turn keeps keys distinct. -/
private theorem Entries.WellKeyed.foldlM_define {sections : List Section}
    {entries entries' : Entries} (h : entries.WellKeyed)
    (hsections : ∀ part ∈ sections, ∀ pair ∈ part.pairs, pair.value.WellKeyed)
    (hdefine : sections.foldlM (fun entries part => part.define? entries) entries =
      some entries') : entries'.WellKeyed := by
  induction sections generalizing entries with
  | nil =>
    cases hdefine
    exact h
  | cons part rest ih =>
    obtain ⟨hpart, hrest⟩ := List.forall_mem_cons.mp hsections
    rw [List.foldlM_cons] at hdefine
    obtain ⟨next, hnext, hothers⟩ := Option.bind_eq_some_iff.mp hdefine
    exact ih (h.define_section hpart hnext) hrest hothers

/-- The table of a text that is accepted has distinct keys, with those of every table in it. -/
theorem wellKeyed_ofText? {text : String} {table : Table} (h : Table.ofText? text = some table) :
    (Value.table table).WellKeyed := by
  obtain ⟨⟨pairs, sections⟩, hread, h⟩ := Option.bind_eq_some_iff.mp h
  obtain ⟨first, hfirst, h⟩ := Option.bind_eq_some_iff.mp h
  obtain ⟨entries, hentries, heq⟩ := Option.bind_eq_some_iff.mp h
  cases heq
  obtain ⟨⟨pairs', rest⟩, hpairs, hread⟩ := Option.bind_eq_some_iff.mp hread
  obtain ⟨sections', hsections, heq⟩ := Option.bind_eq_some_iff.mp hread
  cases heq
  have hstart := Entries.wellKeyed_nil.definePairs? (wellKeyed_of_readPairs? hpairs) hfirst
  exact (hstart.foldlM_define (wellKeyed_of_readSections? hsections) hentries).tableOf

end IconMarkup.Toml
