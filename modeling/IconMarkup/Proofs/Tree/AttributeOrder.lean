import Mathlib.Data.List.Sort
import IconMarkup.Tree.Attributes

/-!
# Attributes as an ordered map

Attributes that are set in turn are the ordered map of what was set: each name stands once, the
names stand in the order in which they were first set, and each has the value that it was last set
to (`IsMapOf`). One setting keeps this (`IsMapOf.set`), hence any number of them does
(`IsMapOf.setAll`), and no other attributes are such a map (`IsMapOf.eq`). A setting leaves the
place and the value of every other name as they are, and nothing but the place of a new name is
left of it after a later setting of the same name (`isMapOf_setAll_ofList`).
-/

namespace IconMarkup.Attributes

variable {attributes others : Attributes} {entries : List (String × String)}
  {name other value : String}

/-- The names, in order. -/
def names (attributes : Attributes) : List String :=
  attributes.toList.map (·.1)

/-- Sets each name of a list in turn. -/
def setAll (attributes : Attributes) (entries : List (String × String)) : Attributes :=
  entries.foldl (fun attributes entry => attributes.set entry.1 entry.2) attributes

@[simp]
theorem setAll_nil (attributes : Attributes) : attributes.setAll [] = attributes := rfl

@[simp]
theorem setAll_cons (attributes : Attributes) (entry : String × String)
    (rest : List (String × String)) :
    attributes.setAll (entry :: rest) = (attributes.set entry.1 entry.2).setAll rest := rfl

theorem mem_names_iff : name ∈ attributes.names ↔ ∃ value, (name, value) ∈ attributes.toList := by
  simp [names]

/-- The value of a name is looked up behind the entries that do not have the name. -/
private theorem get?_of_toList_eq {before rest : List (String × String)}
    (hentries : attributes.toList = before ++ rest) (hnew : name ∉ before.map (·.1)) :
    attributes.get? name = (rest.find? (·.1 = name)).map (·.2) := by
  have hnone : before.find? (·.1 = name) = none := by
    refine List.find?_eq_none.mpr fun entry hentry heq => hnew ?_
    exact List.mem_map.mpr ⟨entry, hentry, of_decide_eq_true heq⟩
  rw [get?, ← toList, hentries, List.find?_append, hnone, Option.none_or]

/-- Among distinct names each has the value that stands beside it. -/
private theorem get?_of_mem (hdistinct : attributes.names.Nodup)
    (h : (name, value) ∈ attributes.toList) :
    attributes.get? name = some value := by
  obtain ⟨before, after, hentries⟩ := List.append_of_mem h
  have hnew : name ∉ before.map (·.1) := by
    intro hmem
    rw [names, hentries, List.map_append, List.nodup_append] at hdistinct
    exact hdistinct.2.2 _ hmem name (by simp) rfl
  rw [get?_of_toList_eq hentries hnew]
  simp

private theorem toList_eq_map_names (hdistinct : attributes.names.Nodup) :
    attributes.toList =
      attributes.names.map fun name => (name, (attributes.get? name).getD "") := by
  have hvalue : ∀ entry ∈ attributes.toList,
      entry = (entry.1, (attributes.get? entry.1).getD "") := by
    intro entry hentry
    rw [get?_of_mem hdistinct hentry, Option.getD_some]
  calc attributes.toList = attributes.toList.map id := (List.map_id _).symm
    _ = attributes.toList.map fun entry => (entry.1, (attributes.get? entry.1).getD "") :=
        List.map_congr_left hvalue
    _ = attributes.names.map fun name => (name, (attributes.get? name).getD "") := by
        rw [names, List.map_map]
        rfl

/-- Attributes with distinct names are given by their names and values. -/
theorem eq_of_names_eq (hdistinct : attributes.names.Nodup)
    (hnames : attributes.names = others.names)
    (hvalues : ∀ name, attributes.get? name = others.get? name) : attributes = others := by
  have hentries : attributes.toList = others.toList := by
    rw [toList_eq_map_names hdistinct, toList_eq_map_names (hnames ▸ hdistinct), hnames]
    exact List.map_congr_left fun name _ => by rw [hvalues]
  exact congrArg mk hentries

/-! ### One setting -/

private theorem setEntry_append {before : List (String × String)} (h : name ∉ before.map (·.1))
    (rest : List (String × String)) :
    setEntry name value (before ++ rest) = before ++ setEntry name value rest := by
  induction before with
  | nil => rfl
  | cons entry before ih =>
    rw [List.map_cons, List.mem_cons, not_or] at h
    rw [List.cons_append, setEntry, if_neg (Ne.symm h.1), ih h.2, List.cons_append]

/-- A setting puts a new name at the end, or replaces the value where the name stands. -/
private theorem toList_set_cases (attributes : Attributes) (name value : String) :
    (name ∉ attributes.names ∧
        (attributes.set name value).toList = attributes.toList ++ [(name, value)]) ∨
      ∃ before old after, name ∉ before.map (·.1) ∧
        attributes.toList = before ++ (name, old) :: after ∧
        (attributes.set name value).toList = before ++ (name, value) :: after := by
  by_cases hmem : name ∈ attributes.names
  · obtain ⟨first, last, hnames, hfirst⟩ := List.eq_append_cons_of_mem hmem
    obtain ⟨before, rest, hentries, rfl, hrest⟩ := List.map_eq_append_iff.mp hnames
    obtain ⟨⟨_, old⟩, after, rfl, rfl, -⟩ := List.map_eq_cons_iff.mp hrest
    refine .inr ⟨before, old, after, hfirst, hentries, ?_⟩
    change setEntry _ value attributes.toList = _
    rw [hentries, setEntry_append hfirst, setEntry, if_pos rfl]
  · exact .inl ⟨hmem, setEntry_of_notMem hmem⟩

/-- A name that is set anew comes last, and one that was set before keeps its place. -/
theorem names_set (attributes : Attributes) (name value : String) :
    (attributes.set name value).names =
      if name ∈ attributes.names then attributes.names else attributes.names ++ [name] := by
  rcases toList_set_cases attributes name value with
    ⟨hnew, hset⟩ | ⟨before, old, after, -, hentries, hset⟩
  · rw [if_neg hnew, names, hset, List.map_append, names, List.map_singleton]
  · have hmem : name ∈ attributes.names := mem_names_iff.mpr ⟨old, by simp [hentries]⟩
    rw [if_pos hmem, names, names, hset, hentries]
    simp

/-- A name has the value that it is set to, and the others keep theirs. -/
theorem get?_set (attributes : Attributes) (name value other : String) :
    (attributes.set name value).get? other =
      if other = name then some value else attributes.get? other := by
  rcases toList_set_cases attributes name value with
    ⟨hnew, hset⟩ | ⟨before, old, after, hbefore, hentries, hset⟩
  · by_cases hother : other = name
    · subst hother
      rw [if_pos rfl, get?_of_toList_eq hset hnew]
      simp
    · have hnone : [(name, value)].find? (·.1 = other) = none := by
        simpa using Ne.symm hother
      rw [if_neg hother, get?, ← toList, hset, List.find?_append, hnone, Option.or_none]
      rfl
  · by_cases hother : other = name
    · subst hother
      rw [if_pos rfl, get?_of_toList_eq hset hbefore]
      simp
    · rw [if_neg hother, get?, get?, ← toList, ← toList, hset, hentries, List.find?_append,
        List.find?_append, List.find?_cons_of_neg (by simpa using Ne.symm hother),
        List.find?_cons_of_neg (by simpa using Ne.symm hother)]

private theorem mem_names_set : other ∈ (attributes.set name value).names ↔
    other ∈ attributes.names ∨ other = name := by
  rw [names_set]
  split
  · rename_i hname
    exact ⟨.inl, fun h => h.elim id fun heq => heq ▸ hname⟩
  · rw [List.mem_append, List.mem_singleton]

private theorem nodup_names_set (hdistinct : attributes.names.Nodup) (name value : String) :
    (attributes.set name value).names.Nodup := by
  rw [names_set]
  split
  · exact hdistinct
  · rename_i hnew
    rw [← List.concat_eq_append, List.nodup_concat]
    exact ⟨hnew, hdistinct⟩

/-- A setting moves no other name. -/
theorem idxOf?_names_set (attributes : Attributes) (value : String) (h : other ≠ name) :
    (attributes.set name value).names.idxOf? other = attributes.names.idxOf? other := by
  rw [names_set]
  split
  · rfl
  · have hnone : [name].findIdx? (· == other) = none := by simpa using Ne.symm h
    rw [List.idxOf?, List.findIdx?_append, hnone, Option.map_none, Option.or_none]

/-! ### Settings in turn -/

/-- The names that were set stay in front. -/
theorem names_prefix_setAll (attributes : Attributes) (entries : List (String × String)) :
    attributes.names <+: (attributes.setAll entries).names := by
  induction entries generalizing attributes with
  | nil => exact List.prefix_rfl
  | cons entry rest ih =>
    have hset : attributes.names <+: (attributes.set entry.1 entry.2).names := by
      rw [names_set]
      split
      · exact List.prefix_rfl
      · exact List.prefix_append ..
    exact hset.trans (ih _)

/-- One name is first set before the other one is. -/
def FirstBefore (entries : List (String × String)) (first second : String) : Prop :=
  (entries.map (·.1)).idxOf first < (entries.map (·.1)).idxOf second

instance : Std.Irrefl (FirstBefore entries) :=
  ⟨fun _ => Nat.lt_irrefl _⟩

instance : Std.Antisymm (FirstBefore entries) :=
  ⟨fun _ _ h h' => absurd h' (Nat.lt_asymm h)⟩

/-- Attributes are the ordered map of the entries of a list that are set in turn. -/
structure IsMapOf (entries : List (String × String)) (attributes : Attributes) : Prop where
  /-- No name stands twice. -/
  distinct : attributes.names.Nodup
  /-- The names are those that are set. -/
  mem_names_iff (name : String) : name ∈ attributes.names ↔ name ∈ entries.map (·.1)
  /-- They stand in the order in which they are first set. -/
  ordered : attributes.names.Pairwise (FirstBefore entries)
  /-- The value of a name is that of the last entry with it, if there is one. -/
  get?_eq (name : String) :
    attributes.get? name = (entries.filter (·.1 = name)).getLast?.map (·.2)

variable {first second : String}

private theorem firstBefore_of_notMem (hfirst : first ∈ entries.map (·.1))
    (hsecond : second ∉ entries.map (·.1)) : FirstBefore entries first second := by
  rw [FirstBefore, List.idxOf_eq_length hsecond]
  exact List.idxOf_lt_length_of_mem hfirst

/-- Later entries do not change which name is set before which. -/
private theorem FirstBefore.append (h : FirstBefore entries first second)
    (more : List (String × String)) : FirstBefore (entries ++ more) first second := by
  rw [FirstBefore] at h ⊢
  have hfirst : first ∈ entries.map (·.1) :=
    List.idxOf_lt_length_iff.mp (Nat.lt_of_lt_of_le h List.idxOf_le_length)
  rw [List.map_append, List.idxOf_append_of_mem hfirst]
  by_cases hsecond : second ∈ entries.map (·.1)
  · rwa [List.idxOf_append_of_mem hsecond]
  · rw [List.idxOf_append_of_notMem hsecond]
    have := List.idxOf_lt_length_of_mem hfirst
    omega

private theorem isMapOf_empty : IsMapOf [] empty where
  distinct := List.nodup_nil
  mem_names_iff _ := Iff.rfl
  ordered := .nil
  get?_eq _ := rfl

/-- One more setting gives the ordered map of one more entry. -/
theorem IsMapOf.set (h : IsMapOf entries attributes) (name value : String) :
    IsMapOf (entries ++ [(name, value)]) (attributes.set name value) where
  distinct := nodup_names_set h.distinct name value
  mem_names_iff other := by
    rw [mem_names_set, h.mem_names_iff, List.map_append, List.mem_append, List.map_singleton,
      List.mem_singleton]
  ordered := by
    have hbefore : attributes.names.Pairwise (FirstBefore (entries ++ [(name, value)])) :=
      h.ordered.imp fun hfirst => hfirst.append _
    rw [names_set]
    split
    · exact hbefore
    · rename_i hnew
      refine List.pairwise_append.mpr ⟨hbefore, List.pairwise_singleton .., ?_⟩
      intro first hfirst last hlast
      rw [List.mem_singleton.mp hlast]
      rw [h.mem_names_iff] at hfirst hnew
      exact (firstBefore_of_notMem hfirst hnew).append _
  get?_eq other := by
    rw [get?_set, List.filter_append, h.get?_eq]
    by_cases hother : other = name
    · subst hother
      simp
    · have hnone : [(name, value)].filter (·.1 = other) = [] := by
        simpa using Ne.symm hother
      rw [if_neg hother, hnone, List.append_nil]

/-- Setting the entries of a list in turn gives the ordered map of them all. -/
theorem IsMapOf.setAll (h : IsMapOf entries attributes) (more : List (String × String)) :
    IsMapOf (entries ++ more) (attributes.setAll more) := by
  induction more generalizing entries attributes with
  | nil => rwa [List.append_nil, setAll_nil]
  | cons entry rest ih =>
    rw [List.append_cons, setAll_cons]
    exact ih (h.set entry.1 entry.2)

theorem isMapOf_ofList (entries : List (String × String)) : IsMapOf entries (ofList entries) :=
  isMapOf_empty.setAll entries

/-- What holds of the names that are set holds of the names of the attributes. -/
theorem forall_mem_ofList {p : String → Prop} (h : ∀ entry ∈ entries, p entry.1) :
    ∀ entry ∈ (ofList entries).toList, p entry.1 := by
  intro entry hentry
  have hmem : entry.1 ∈ entries.map (·.1) :=
    ((isMapOf_ofList entries).mem_names_iff _).mp (List.mem_map_of_mem hentry)
  obtain ⟨setting, hsetting, hname⟩ := List.mem_map.mp hmem
  exact hname ▸ h setting hsetting

/-- The name that is set first comes first. -/
theorem head?_ofList {p : String → Prop} (h : ∀ entry ∈ entries.head?, p entry.1) :
    ∀ entry ∈ (ofList entries).toList.head?, p entry.1 := by
  cases entries with
  | nil => simp
  | cons first rest =>
    intro entry hentry
    have hprefix : [first.1] <+: (ofList (first :: rest)).names :=
      names_prefix_setAll (empty.set first.1 first.2) rest
    obtain ⟨others, hothers⟩ := hprefix
    have hhead : (ofList (first :: rest)).names.head? = some entry.1 := by
      rw [names, List.head?_map, hentry, Option.map_some]
    rw [← hothers, List.singleton_append, List.head?_cons, Option.some_inj] at hhead
    exact hhead ▸ h first rfl

/-- A name that is set last and only once comes last. -/
theorem ofList_concat (value : String) (h : ∀ entry ∈ entries, entry.1 ≠ name) :
    ofList (entries ++ [(name, value)]) = ⟨(ofList entries).toList ++ [(name, value)]⟩ := by
  have hnew : name ∉ (ofList entries).names := by
    intro hmem
    obtain ⟨found, hfound⟩ := mem_names_iff.mp hmem
    exact forall_mem_ofList (p := (· ≠ name)) h _ hfound rfl
  rw [ofList, List.foldl_concat]
  exact congrArg mk (setEntry_of_notMem hnew)

/-- There is but one ordered map of a list. -/
theorem IsMapOf.eq (h : IsMapOf entries attributes) (h' : IsMapOf entries others) :
    attributes = others := by
  have hnames : attributes.names = others.names :=
    h.ordered.eq_of_mem_iff h'.ordered fun name =>
      (h.mem_names_iff name).trans (h'.mem_names_iff name).symm
  exact eq_of_names_eq h.distinct hnames fun name => (h.get?_eq name).trans (h'.get?_eq name).symm

/-! ### Settings that are replaced -/

/-- Of two settings of a name, one right after the other, the second one is left. -/
theorem set_set (hdistinct : attributes.names.Nodup) (name value last : String) :
    (attributes.set name value).set name last = attributes.set name last := by
  have hmem : name ∈ (attributes.set name value).names := mem_names_set.mpr (.inr rfl)
  refine eq_of_names_eq (nodup_names_set (nodup_names_set hdistinct ..) ..) ?_ fun other => ?_
  · rw [names_set, if_pos hmem, names_set, names_set]
  · rw [get?_set, get?_set, get?_set]
    split <;> rfl

/-- A name that stands already can be set before or after another one. -/
theorem set_comm (hdistinct : attributes.names.Nodup) (hmem : name ∈ attributes.names)
    (hother : other ≠ name) (value last : String) :
    (attributes.set other value).set name last = (attributes.set name last).set other value := by
  have hmem' : name ∈ (attributes.set other value).names := mem_names_set.mpr (.inl hmem)
  refine eq_of_names_eq (nodup_names_set (nodup_names_set hdistinct ..) ..) ?_ fun found => ?_
  · rw [names_set, if_pos hmem', names_set, names_set, names_set, if_pos hmem]
  · rw [get?_set, get?_set, get?_set, get?_set]
    by_cases hfound : found = name
    · rw [if_pos hfound, if_pos hfound, if_neg fun heq => hother (heq.symm.trans hfound)]
    · rw [if_neg hfound, if_neg hfound]

/-- A name that stands already can be set at once in place of last, and need not be set in between.
-/
theorem set_setAll (hdistinct : attributes.names.Nodup) (hmem : name ∈ attributes.names)
    (between : List (String × String)) (last : String) :
    (attributes.setAll between).set name last =
      (attributes.set name last).setAll (between.filter (·.1 ≠ name)) := by
  -- the name stands in every state in between, so that each setting of another one can be passed
  induction between generalizing attributes with
  | nil => rfl
  | cons entry rest ih =>
    have hnext := nodup_names_set hdistinct entry.1 entry.2
    rw [setAll_cons, ih hnext (mem_names_set.mpr (.inl hmem))]
    by_cases hentry : entry.1 = name
    · rw [List.filter_cons_of_neg (by simpa using hentry), hentry, set_set hdistinct]
    · rw [List.filter_cons_of_pos (by simpa using hentry), setAll_cons,
        set_comm hdistinct hmem hentry]

/-- Attributes that are made from a list and then set any number of times are, after each of these
steps, the one ordered map of the entries so far. A further setting changes neither the place nor
the value of any other name. After a later setting of the same name nothing tells it from a setting
to the last value, with the settings of the name in between left out; if the name was set before,
it can be left out itself. -/
theorem isMapOf_setAll_ofList (entries later : List (String × String)) (name value : String) :
    let attributes := (ofList entries).setAll later
    (∀ others, IsMapOf (entries ++ later) others ↔ others = attributes) ∧
      (∀ other, other ≠ name →
        (attributes.set name value).names.idxOf? other = attributes.names.idxOf? other ∧
          (attributes.set name value).get? other = attributes.get? other) ∧
      ∀ between last,
        ((attributes.set name value).setAll between).set name last =
            (attributes.set name last).setAll (between.filter (·.1 ≠ name)) ∧
          (name ∈ attributes.names →
            ((attributes.set name value).setAll between).set name last =
              (attributes.setAll between).set name last) := by
  intro attributes
  have hmap : IsMapOf (entries ++ later) attributes := (isMapOf_ofList entries).setAll later
  have hlater : ∀ between last, ((attributes.set name value).setAll between).set name last =
      (attributes.set name last).setAll (between.filter (·.1 ≠ name)) := by
    intro between last
    have hmem : name ∈ (attributes.set name value).names := mem_names_set.mpr (.inr rfl)
    rw [set_setAll (nodup_names_set hmap.distinct ..) hmem, set_set hmap.distinct]
  refine ⟨fun others => ⟨fun h => h.eq hmap, fun h => h ▸ hmap⟩, fun other hother => ?_,
    fun between last => ⟨hlater between last, fun hmem => ?_⟩⟩
  · exact ⟨idxOf?_names_set attributes value hother, by rw [get?_set, if_neg hother]⟩
  · rw [hlater, set_setAll hmap.distinct hmem]

/-- A class that is set again stays in front of the identifier, whatever is set in between. -/
theorem isMapOf_setAll_ofList_classAndId :
    let attributes := (ofList [("class", "a"), ("id", "x")]).setAll [("class", "b")]
    let between := [("title", "t"), ("class", "d")]
    IsMapOf [("class", "a"), ("id", "x"), ("class", "b")] ⟨[("class", "b"), ("id", "x")]⟩ ∧
      "id" ≠ "class" ∧
      (attributes.set "class" "c").names.idxOf? "id" = attributes.names.idxOf? "id" ∧
      (attributes.set "class" "c").get? "id" = attributes.get? "id" ∧
      "class" ∈ attributes.names ∧
      ((attributes.set "class" "c").setAll between).set "class" "e" =
        (attributes.setAll between).set "class" "e" ∧
      ((attributes.set "class" "c").setAll between).set "class" "e" =
        ⟨[("class", "e"), ("id", "x"), ("title", "t")]⟩ := by
  intro attributes between
  obtain ⟨hmap, hothers, hlater⟩ :=
    isMapOf_setAll_ofList [("class", "a"), ("id", "x")] [("class", "b")] "class" "c"
  have hne : "id" ≠ "class" := by decide
  have hmem : "class" ∈ attributes.names := by decide +kernel
  obtain ⟨hplace, hvalue⟩ := hothers "id" hne
  obtain ⟨hreplaced, hdropped⟩ := hlater between "e"
  exact ⟨(hmap _).mpr (by decide +kernel), hne, hplace, hvalue, hmem, hdropped hmem,
    hreplaced.trans (by decide +kernel)⟩

end IconMarkup.Attributes
