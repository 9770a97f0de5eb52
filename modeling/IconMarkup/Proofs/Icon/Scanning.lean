import Mathlib.Data.List.Pairwise
import Mathlib.Data.List.Sort
import IconMarkup.Proofs.Icon.Cut
import IconMarkup.Proofs.Text.Offsets

/-!
# What scanning finds

`eq_scan_iff`: the shortcodes that `scan` gives are the only list that is in order without overlaps,
consists of shortcodes as the text has them at valid offsets, and leaves out no place where the
grammar has one, unless the place lies within a shortcode of the list.

The proof that scanning gives such a list follows the recursion of `scanFrom`. That there is only
one goes from left to right: where a shortcode of one list begins, one of the other list must stand,
and it can neither begin earlier nor differ (`IsScanOf.mem_of_mem`).
-/

namespace IconMarkup.Icon

/-! ### The grammar -/

/-- Whether a word can name an icon: some ASCII letters, digits and hyphens. -/
def IsIconName (icon : String) : Prop :=
  icon ≠ "" ∧ ∀ c ∈ icon.toList, c.isAlphanum ∨ c = '-'

/-- The text of a shortcode. -/
def shortcodeText (style : Style) (icon : String) : String :=
  ":fa-" ++ style.keyword ++ ":" ++ icon ++ ":"

/-- Whether the grammar has a shortcode that begins at a byte offset of a text. -/
def BeginsAt (text : String) (offset : Nat) : Prop :=
  ∃ style icon before after, IsIconName icon ∧ text = before ++ shortcodeText style icon ++ after ∧
    before.utf8ByteSize = offset

/-- Whether a shortcode is what a text has at its offsets. -/
structure Shortcode.StandsIn (shortcode : Shortcode) (text : String) : Prop where
  start_isValid : (⟨shortcode.start⟩ : String.Pos.Raw).IsValid text
  stop_isValid : (⟨shortcode.stop⟩ : String.Pos.Raw).IsValid text
  slice : String.ofList (Text.sliceBytes shortcode.start shortcode.stop text.toList) =
    shortcode.display
  display : shortcode.display = shortcodeText shortcode.style shortcode.icon
  name : IsIconName shortcode.icon

/-- Whether one shortcode ends before the next one begins. -/
def Shortcode.Precedes (first second : Shortcode) : Prop :=
  first.start < second.start ∧ first.stop ≤ second.start

/-- Whether a list is what a text has of shortcodes, from left to right and without overlaps. -/
structure IsScanOf (text : String) (found : List Shortcode) : Prop where
  ordered : found.Pairwise Shortcode.Precedes
  standsIn : ∀ shortcode ∈ found, shortcode.StandsIn text
  covers : ∀ offset, BeginsAt text offset →
    ∃ shortcode ∈ found, shortcode.start ≤ offset ∧ offset < shortcode.stop

private theorem toList_shortcodeText (style : Style) (icon : String) :
    (shortcodeText style icon).toList = spelling style icon.toList := by
  simp [shortcodeText, spelling, shortcodeLead]

theorem isIconName_iff {icon : String} :
    IsIconName icon ↔ icon.toList ≠ [] ∧ ∀ c ∈ icon.toList, isIconChar c := by
  simp [IsIconName, isIconChar]

/-- A shortcode begins at an offset if one can be read there. -/
private theorem beginsAt_iff {text : String} {offset : Nat} :
    BeginsAt text offset ↔ ∃ before cs found, text.toList = before ++ cs ∧
      Text.byteLength before = offset ∧ readShortcode? cs = some found := by
  constructor
  · rintro ⟨style, icon, before, after, hname, rfl, rfl⟩
    obtain ⟨hne, hchars⟩ := isIconName_iff.mp hname
    refine ⟨before.toList, spelling style icon.toList ++ after.toList,
      (style, icon.toList, after.toList), ?_, Text.byteLength_toList before, ?_⟩
    · simp [toList_shortcodeText]
    · exact readShortcode?_eq_some_iff.mpr ⟨hne, hchars, rfl⟩
  · rintro ⟨before, cs, ⟨style, icon, rest⟩, htext, rfl, hread⟩
    obtain ⟨hne, hchars, rfl⟩ := readShortcode?_eq_some_iff.mp hread
    refine ⟨style, String.ofList icon, String.ofList before, String.ofList rest, ?_, ?_, ?_⟩
    · rw [isIconName_iff, String.toList_ofList]
      exact ⟨hne, hchars⟩
    · rw [← String.toList_inj, htext]
      simp [toList_shortcodeText]
    · exact Text.utf8ByteSize_ofList before

/-! ### Scanning finds such a list -/

private theorem scanFrom_of_some {start : Nat} {c : Char} {cs icon rest : List Char} {style : Style}
    (h : readShortcode? (c :: cs) = some (style, icon, rest)) :
    scanFrom start (c :: cs) =
      ⟨style, String.ofList icon, start, Text.byteLength (spelling style icon)⟩ ::
        scanFrom (start + Text.byteLength (spelling style icon)) rest := by
  rw [scanFrom]
  split <;> simp_all

private theorem scanFrom_of_none {start : Nat} {c : Char} {cs : List Char}
    (h : readShortcode? (c :: cs) = none) :
    scanFrom start (c :: cs) = scanFrom (start + c.utf8Size) cs := by
  rw [scanFrom]
  split <;> simp_all

/-- What is found lies in the rest of the text, and is what can be read there. -/
theorem exists_read_of_mem_scanFrom {start : Nat} {cs : List Char} {shortcode : Shortcode}
    (h : shortcode ∈ scanFrom start cs) :
    ∃ before icon rest, cs = before ++ (spelling shortcode.style icon ++ rest) ∧
      shortcode = ⟨shortcode.style, String.ofList icon, start + Text.byteLength before,
        Text.byteLength (spelling shortcode.style icon)⟩ ∧
      IsIconName (String.ofList icon) := by
  induction cs using cut.induct generalizing start with
  | case1 => simp [scanFrom] at h
  | case2 c cs style icon rest hread ih =>
    rw [scanFrom_of_some hread, List.mem_cons] at h
    obtain ⟨hne, hchars, hcs⟩ := readShortcode?_eq_some_iff.mp hread
    rcases h with rfl | h
    · refine ⟨[], icon, rest, hcs, by simp [Text.byteLength], ?_⟩
      rw [isIconName_iff, String.toList_ofList]
      exact ⟨hne, hchars⟩
    · obtain ⟨before, icon', rest', hrest, hshortcode, hname⟩ := ih h
      refine ⟨spelling style icon ++ before, icon', rest', ?_, ?_, hname⟩
      · rw [hcs, hrest, List.append_assoc]
      · rw [Text.byteLength_append, ← Nat.add_assoc]
        exact hshortcode
  | case3 c cs hread ih =>
    rw [scanFrom_of_none hread] at h
    obtain ⟨before, icon', rest', hrest, hshortcode, hname⟩ := ih h
    refine ⟨c :: before, icon', rest', ?_, ?_, hname⟩
    · rw [hrest, List.cons_append]
    · rw [Text.byteLength, ← Nat.add_assoc]
      exact hshortcode

private theorem start_le_of_mem_scanFrom {start : Nat} {cs : List Char} {shortcode : Shortcode}
    (h : shortcode ∈ scanFrom start cs) : start ≤ shortcode.start := by
  obtain ⟨before, icon, rest, -, hshortcode, -⟩ := exists_read_of_mem_scanFrom h
  have hstart : shortcode.start = start + Text.byteLength before := congrArg (·.start) hshortcode
  omega

private theorem byteLength_spelling_pos (style : Style) (icon : List Char) :
    0 < Text.byteLength (spelling style icon) := by
  have hne : spelling style icon ≠ [] := by simp [spelling]
  have := mt Text.byteLength_eq_zero_iff.mp hne
  omega

/-- Scanning goes on behind each shortcode. -/
theorem pairwise_scanFrom (start : Nat) (cs : List Char) :
    (scanFrom start cs).Pairwise Shortcode.Precedes := by
  induction cs using cut.induct generalizing start with
  | case1 => simp [scanFrom]
  | case2 c cs style icon rest hread ih =>
    rw [scanFrom_of_some hread]
    refine List.pairwise_cons.mpr ⟨fun shortcode hmem => ?_, ih _⟩
    have hpos := byteLength_spelling_pos style icon
    have hle := start_le_of_mem_scanFrom hmem
    rw [Shortcode.Precedes, Shortcode.stop]
    constructor <;> dsimp only <;> omega
  | case3 c cs hread ih =>
    rw [scanFrom_of_none hread]
    exact ih _

/-- No place where a shortcode can be read is passed over. -/
theorem exists_mem_scanFrom (start : Nat) {cs before rest : List Char}
    {found : Style × List Char × List Char} (hcs : cs = before ++ rest)
    (hread : readShortcode? rest = some found) :
    ∃ shortcode ∈ scanFrom start cs, shortcode.start ≤ start + Text.byteLength before ∧
      start + Text.byteLength before < shortcode.stop := by
  induction cs using cut.induct generalizing start before with
  | case1 =>
    obtain ⟨rfl, rfl⟩ := List.nil_eq_append_iff.mp hcs
    simp [readShortcode?, Text.afterLead?, shortcodeLead] at hread
  | case2 c cs style icon rest' hhead ih =>
    rw [scanFrom_of_some hhead]
    have hspelling := (readShortcode?_eq_some_iff.mp hhead).2.2
    by_cases hwithin : Text.byteLength before < Text.byteLength (spelling style icon)
    · refine ⟨_, List.mem_cons_self, ?_, ?_⟩
      · dsimp only
        omega
      · rw [Shortcode.stop]
        dsimp only
        omega
    · -- the place lies behind the shortcode, in the text that is scanned next
      obtain ⟨between, rfl, hrest⟩ := Text.exists_append_of_byteLength_le
        (hspelling.symm.trans hcs) (by omega)
      obtain ⟨shortcode, hmem, hle, hlt⟩ :=
        ih (start + Text.byteLength (spelling style icon)) hrest
      rw [Text.byteLength_append]
      exact ⟨shortcode, List.mem_cons_of_mem _ hmem, by omega, by omega⟩
  | case3 c cs hhead ih =>
    rw [scanFrom_of_none hhead]
    rcases before with _ | ⟨d, before⟩
    · rw [List.nil_append] at hcs
      rw [← hcs, hhead] at hread
      exact absurd hread (by simp)
    · rw [List.cons_append, List.cons.injEq] at hcs
      obtain ⟨rfl, hcs⟩ := hcs
      obtain ⟨shortcode, hmem, hle, hlt⟩ := ih (start + c.utf8Size) hcs
      rw [Text.byteLength]
      exact ⟨shortcode, hmem, by omega, by omega⟩

/-- A shortcode stands in a text where it can be read. -/
private theorem standsIn_of_read {text : String} {before icon rest : List Char}
    {shortcode : Shortcode}
    (htext : text.toList = before ++ (spelling shortcode.style icon ++ rest))
    (hshortcode : shortcode = ⟨shortcode.style, String.ofList icon, Text.byteLength before,
      Text.byteLength (spelling shortcode.style icon)⟩)
    (hname : IsIconName (String.ofList icon)) : shortcode.StandsIn text := by
  have hstart : shortcode.start = Text.byteLength before := congrArg (·.start) hshortcode
  have hicon : shortcode.icon = String.ofList icon := congrArg (·.icon) hshortcode
  have hstop : shortcode.stop =
      Text.byteLength before + Text.byteLength (spelling shortcode.style icon) := by
    rw [hshortcode]
    rfl
  have hdisplay : shortcode.display = String.ofList (spelling shortcode.style icon) := by
    rw [Shortcode.display, hicon, String.toList_ofList]
  refine ⟨?_, ?_, ?_, ?_, ?_⟩
  · exact Text.isValid_iff.mpr ⟨before, _, htext, hstart.symm⟩
  · refine Text.isValid_iff.mpr ⟨before ++ spelling shortcode.style icon, rest, ?_, ?_⟩
    · rw [htext, List.append_assoc]
    · rw [Text.byteLength_append, hstop]
  · rw [hstart, hstop, htext, Text.sliceBytes_append, hdisplay]
  · rw [hdisplay, hicon, ← String.toList_inj, toList_shortcodeText, String.toList_ofList,
      String.toList_ofList]
  · rw [hicon]
    exact hname

/-- Scanning finds the shortcodes of a text. -/
theorem isScanOf_scan (text : String) : IsScanOf text (scan text) := by
  refine ⟨pairwise_scanFrom _ _, fun shortcode hmem => ?_, fun offset hbegins => ?_⟩
  · obtain ⟨before, icon, rest, htext, hshortcode, hname⟩ := exists_read_of_mem_scanFrom hmem
    rw [Nat.zero_add] at hshortcode
    exact standsIn_of_read htext hshortcode hname
  · obtain ⟨before, cs, found, htext, rfl, hread⟩ := beginsAt_iff.mp hbegins
    have hcovered := exists_mem_scanFrom 0 htext hread
    rwa [Nat.zero_add] at hcovered

/-! ### There is only one such list -/

/-- A shortcode in a text can be read where it begins. -/
private theorem Shortcode.StandsIn.exists_read {text : String} {shortcode : Shortcode}
    (h : shortcode.StandsIn text) :
    ∃ before cs rest, text.toList = before ++ cs ∧ Text.byteLength before = shortcode.start ∧
      readShortcode? cs = some (shortcode.style, shortcode.icon.toList, rest) ∧
      shortcode.length = Text.byteLength (spelling shortcode.style shortcode.icon.toList) := by
  obtain ⟨before, after, htext, hbefore⟩ := Text.isValid_iff.mp h.start_isValid
  have hle : shortcode.start ≤ shortcode.stop := Nat.le_add_right ..
  obtain ⟨hdrop, hlength⟩ := Text.dropBytes_eq_append h.start_isValid h.stop_isValid hle
  have hslice : Text.sliceBytes shortcode.start shortcode.stop text.toList =
      spelling shortcode.style shortcode.icon.toList := by
    rw [← String.toList_ofList (l := Text.sliceBytes ..), h.slice, Shortcode.display,
      String.toList_ofList]
  have hafter : after = spelling shortcode.style shortcode.icon.toList ++
      Text.dropBytes shortcode.stop text.toList := by
    rw [← hslice, ← hdrop, ← hbefore, htext, Text.dropBytes_byteLength_append]
  obtain ⟨hne, hchars⟩ := isIconName_iff.mp h.name
  have hread := readShortcode?_eq_some_iff.mpr ⟨hne, hchars, hafter⟩
  refine ⟨before, after, _, htext, hbefore, hread, ?_⟩
  rw [← hslice, hlength, Shortcode.stop]
  omega

private theorem Shortcode.StandsIn.beginsAt {text : String} {shortcode : Shortcode}
    (h : shortcode.StandsIn text) : BeginsAt text shortcode.start := by
  obtain ⟨before, cs, rest, htext, hbefore, hread, -⟩ := h.exists_read
  exact beginsAt_iff.mpr ⟨before, cs, _, htext, hbefore, hread⟩

/-- Nothing is found in a text exactly when the grammar has no shortcode in it. -/
theorem scan_eq_nil_iff_forall_not_beginsAt {text : String} :
    scan text = [] ↔ ∀ offset, ¬ BeginsAt text offset := by
  have hscan := isScanOf_scan text
  constructor
  · intro hnil offset hbegins
    obtain ⟨shortcode, hmem, -⟩ := hscan.covers offset hbegins
    rw [hnil] at hmem
    exact List.not_mem_nil hmem
  · intro hnone
    refine List.eq_nil_iff_forall_not_mem.mpr fun shortcode hmem => ?_
    exact hnone _ (hscan.standsIn _ hmem).beginsAt

/-- At most one shortcode stands at an offset. -/
private theorem Shortcode.StandsIn.eq_of_start_eq {text : String} {first second : Shortcode}
    (hfirst : first.StandsIn text) (hsecond : second.StandsIn text)
    (hstart : first.start = second.start) : first = second := by
  obtain ⟨before, cs, rest, htext, hbefore, hread, hlength⟩ := hfirst.exists_read
  obtain ⟨before', cs', rest', htext', hbefore', hread', hlength'⟩ := hsecond.exists_read
  obtain ⟨rfl, rfl⟩ := Text.append_inj_of_byteLength (htext.symm.trans htext')
    (hbefore.trans (hstart.trans hbefore'.symm))
  obtain ⟨style, icon, start, length⟩ := first
  obtain ⟨style', icon', start', length'⟩ := second
  rw [hread, Option.some_inj, Prod.mk.injEq, Prod.mk.injEq, String.toList_inj] at hread'
  obtain ⟨rfl, rfl, -⟩ := hread'
  dsimp only at hstart hlength hlength'
  rw [hstart, hlength, hlength']

private theorem Shortcode.Precedes.asymm {first second : Shortcode} (h : first.Precedes second) :
    ¬ second.Precedes first := by
  intro h'
  have := h.1
  have := h'.1
  omega

instance : Std.Irrefl Shortcode.Precedes :=
  ⟨fun _ h => h.asymm h⟩

instance : Std.Antisymm Shortcode.Precedes :=
  ⟨fun _ _ h h' => absurd h' h.asymm⟩

/-- Of two shortcodes of a scan one precedes the other. -/
private theorem IsScanOf.eq_or_precedes {text : String} {found : List Shortcode}
    (h : IsScanOf text found)
    {first second : Shortcode} (hfirst : first ∈ found) (hsecond : second ∈ found) :
    first = second ∨ first.Precedes second ∨ second.Precedes first := by
  by_cases heq : first = second
  · exact .inl heq
  · have hsymm : Std.Symm fun one other : Shortcode => one.Precedes other ∨ other.Precedes one :=
      ⟨fun _ _ => Or.symm⟩
    have hordered : found.Pairwise fun one other => one.Precedes other ∨ other.Precedes one :=
      h.ordered.imp Or.inl
    exact .inr (hordered.forall hfirst hsecond heq)

/-- A scan has every shortcode that another scan of the text has. -/
theorem IsScanOf.mem_of_mem {text : String} {found others : List Shortcode}
    (h : IsScanOf text found) (h' : IsScanOf text others) {shortcode : Shortcode}
    (hmem : shortcode ∈ found) : shortcode ∈ others := by
  -- the induction goes from left to right
  induction hoffset : shortcode.start using Nat.strong_induction_on generalizing shortcode with
  | _ offset ih =>
    subst hoffset
    obtain ⟨other, hother, hle, hlt⟩ := h'.covers _ (h.standsIn _ hmem).beginsAt
    obtain ⟨earlier, hearlier, hle', hlt'⟩ := h.covers _ (h'.standsIn _ hother).beginsAt
    rcases h.eq_or_precedes hearlier hmem with rfl | hprecedes | hprecedes
    · -- the two shortcodes begin at the same place
      have heq : other = earlier :=
        (h'.standsIn _ hother).eq_of_start_eq (h.standsIn _ hmem) (by omega)
      exact heq ▸ hother
    · -- an earlier one is in both lists, so that the other one would overlap it
      have hshared := ih _ hprecedes.1 hearlier rfl
      have := hprecedes.2
      rcases h'.eq_or_precedes hother hshared with rfl | ⟨_, _⟩ | ⟨_, _⟩ <;> omega
    · have := hprecedes.1
      omega

/-- The shortcodes of a text, found from left to right, are the one list in order and without
overlaps that has shortcodes only where the text has them, and covers every place where the
grammar has one. -/
theorem eq_scan_iff {text : String} {found : List Shortcode} :
    found = scan text ↔ IsScanOf text found := by
  constructor
  · rintro rfl
    exact isScanOf_scan text
  · intro h
    have hscan := isScanOf_scan text
    exact h.ordered.eq_of_mem_iff hscan.ordered fun shortcode =>
      ⟨h.mem_of_mem hscan, hscan.mem_of_mem h⟩

example : scan "é:fa-no:fa-solid:x:fa-solid:y:" = [⟨.solid, "x", 8, 12⟩] := by decide +kernel

end IconMarkup.Icon
