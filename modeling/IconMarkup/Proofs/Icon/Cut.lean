import Mathlib.Data.List.TakeWhile
import IconMarkup.Icon.Fragment
import IconMarkup.Tree.Render

/-!
# Texts cut at their shortcodes

`cut` takes a text apart at the shortcodes that `scan` finds: the text before the first one, and
each shortcode together with the text up to the next one. Positions play no part in it, so that
everything about scanning a text follows from few facts about the pieces:

* the pieces make up the text (`text_cut`);
* the positions of `scan` are those of the pieces (`scanFrom_eq_shortcodes`), and the nodes of
  `fragment` are the pieces in order (`fragmentFrom_shortcodesFrom`);
* no piece of text between shortcodes has a shortcode by itself (`IsPlain`), because reading a
  shortcode never depends on what follows it (`readShortcode?_append`).
-/

namespace IconMarkup.Icon

/-! ### What reading a shortcode accepts -/

private theorem isIconChar_colon : isIconChar ':' = false := by decide

theorem isIconChar_of_mem_keyword (style : Style) : ∀ c ∈ style.keyword.toList, isIconChar c :=
  List.all_eq_true.mp (by cases style <;> decide)

private theorem readStyle?_keyword (style : Style) (rest : List Char) :
    readStyle? (style.keyword.toList ++ ':' :: rest) = some (style, rest) := by
  cases style <;> simp [readStyle?, Style.all, Style.keyword, Text.afterLead?]

/-- Reading a shortcode accepts exactly the written forms whose name is a nonempty run of icon
characters. -/
theorem readShortcode?_eq_some_iff {cs icon rest : List Char} {style : Style} :
    readShortcode? cs = some (style, icon, rest) ↔
      icon ≠ [] ∧ (∀ c ∈ icon, isIconChar c) ∧ cs = spelling style icon ++ rest := by
  constructor
  · intro h
    refine ⟨?_, ?_, eq_spelling_append_of_readShortcode? h⟩ <;>
      simp only [readShortcode?, Option.bind_eq_bind, Option.bind_eq_some_iff] at h <;>
      obtain ⟨keyword, -, ⟨style', name⟩, -, h⟩ := h <;>
      dsimp only at h <;>
      split at h <;>
      simp only [Option.ite_none_left_eq_some, Option.some.injEq, Prod.mk.injEq, reduceCtorEq] at h
    · obtain ⟨hne, -, rfl, -⟩ := h
      exact fun he => hne (by simp [he])
    · obtain ⟨-, -, rfl, -⟩ := h
      exact fun c hc => List.mem_takeWhile_imp hc
  · rintro ⟨hne, hicon, rfl⟩
    have htake : (icon ++ ':' :: rest).takeWhile isIconChar = icon := by
      rw [List.takeWhile_append_of_pos hicon]
      simp [isIconChar_colon]
    have hdrop : (icon ++ ':' :: rest).dropWhile isIconChar = ':' :: rest := by
      rw [List.dropWhile_append_of_pos hicon]
      simp [isIconChar_colon]
    have hlead : Text.afterLead? shortcodeLead (spelling style icon ++ rest) =
        some (style.keyword.toList ++ ':' :: (icon ++ ':' :: rest)) :=
      Text.afterLead?_eq_some_iff.mpr (by simp [spelling])
    have hsome : icon.isEmpty = false := by simpa using hne
    simp only [readShortcode?, hlead, Option.bind_eq_bind, Option.bind_some,
      readStyle?_keyword, htake, hdrop, hsome, Bool.false_eq_true, if_false]

/-- What follows a shortcode has no influence on reading it. -/
theorem readShortcode?_append {cs icon rest : List Char} {style : Style}
    (h : readShortcode? cs = some (style, icon, rest)) (more : List Char) :
    readShortcode? (cs ++ more) = some (style, icon, rest ++ more) := by
  obtain ⟨hne, hicon, rfl⟩ := readShortcode?_eq_some_iff.mp h
  exact readShortcode?_eq_some_iff.mpr ⟨hne, hicon, List.append_assoc ..⟩

private theorem readShortcode?_eq_none_of_append {cs more : List Char}
    (h : readShortcode? (cs ++ more) = none) : readShortcode? cs = none := by
  rcases hr : readShortcode? cs with _ | ⟨style, icon, rest⟩
  · rfl
  · rw [readShortcode?_append hr] at h
    cases h

/-! ### The pieces of a text -/

/-- A shortcode in a text, and the text from it to the next one. -/
structure Mark where
  /-- The family of the icon. -/
  style : Style
  /-- The name of the icon. -/
  icon : List Char
  /-- The text between the shortcode and the next one. -/
  after : List Char
  deriving DecidableEq, Repr

/-- A text taken apart at its shortcodes. -/
structure Cut where
  /-- The text before the first shortcode. -/
  lead : List Char
  /-- The shortcodes, each with the text after it. -/
  marks : List Mark
  deriving DecidableEq, Repr

/-- A text taken apart at its shortcodes, found from left to right. -/
def cut : List Char → Cut
  | [] => ⟨[], []⟩
  | c :: cs =>
    match _h : readShortcode? (c :: cs) with
    | some (style, icon, rest) =>
      let others := cut rest
      ⟨[], ⟨style, icon, others.lead⟩ :: others.marks⟩
    | none =>
      let others := cut cs
      ⟨c :: others.lead, others.marks⟩
termination_by cs => cs.length
decreasing_by
  · exact length_of_readShortcode? _h
  · simp

theorem cut_of_some {c : Char} {cs icon rest : List Char} {style : Style}
    (h : readShortcode? (c :: cs) = some (style, icon, rest)) :
    cut (c :: cs) = ⟨[], ⟨style, icon, (cut rest).lead⟩ :: (cut rest).marks⟩ := by
  rw [cut]
  split <;> simp_all

theorem cut_of_none {c : Char} {cs : List Char} (h : readShortcode? (c :: cs) = none) :
    cut (c :: cs) = ⟨c :: (cut cs).lead, (cut cs).marks⟩ := by
  rw [cut]
  split <;> simp_all

namespace Cut

/-- The text of a shortcode and what comes after it. -/
def markText (mark : Mark) : List Char :=
  spelling mark.style mark.icon ++ mark.after

/-- The text that the pieces make up. -/
def text (pieces : Cut) : List Char :=
  pieces.lead ++ pieces.marks.flatMap markText

/-- The shortcodes of pieces that begin at the given position. -/
def shortcodesFrom (start : Nat) : List Mark → List Shortcode
  | [] => []
  | mark :: rest =>
    ⟨mark.style, String.ofList mark.icon, start, Text.byteLength (spelling mark.style mark.icon)⟩ ::
      shortcodesFrom (start + Text.byteLength (markText mark)) rest

/-- A piece of text as a node, unless it is empty. -/
def textNodes (cs : List Char) : List Node :=
  if cs = [] then [] else [.text (String.ofList cs)]

/-- The icon of a shortcode and the text after it. -/
def markNodes (classes : Classes) (mark : Mark) : List Node :=
  (element classes mark.style (String.ofList mark.icon)).toNode :: textNodes mark.after

/-- The pieces as nodes, with icons for the shortcodes. -/
def nodes (classes : Classes) (pieces : Cut) : List Node :=
  textNodes pieces.lead ++ pieces.marks.flatMap (markNodes classes)

theorem map_shortcodesFrom {α : Type} (f : Style → String → α) (start : Nat) (marks : List Mark) :
    (shortcodesFrom start marks).map (fun shortcode => f shortcode.style shortcode.icon) =
      marks.map fun mark => f mark.style (String.ofList mark.icon) := by
  induction marks generalizing start with
  | nil => rfl
  | cons mark marks ih => simp [shortcodesFrom, ih]

theorem markupOf_textNodes (cs : List Char) : markupOf (textNodes cs) = Text.escapeText cs := by
  rw [textNodes]
  split
  · rename_i h
    rw [h]
    rfl
  · simp [markupOf, Node.markup]

end Cut

open Cut

/-- The pieces of a text make up the text. -/
theorem text_cut (cs : List Char) : (cut cs).text = cs := by
  induction cs using cut.induct with
  | case1 => simp [cut, text]
  | case2 c cs style icon rest h ih =>
    rw [cut_of_some h]
    have hcs := eq_spelling_append_of_readShortcode? h
    rw [hcs]
    simpa [text, markText] using ih
  | case3 c cs h ih =>
    rw [cut_of_none h]
    simpa [text] using ih

/-- The positions that scanning finds are those of the pieces. -/
theorem scanFrom_eq_shortcodes (start : Nat) (cs : List Char) :
    scanFrom start cs =
      shortcodesFrom (start + Text.byteLength (cut cs).lead) (cut cs).marks := by
  induction cs using cut.induct generalizing start with
  | case1 => simp [scanFrom, cut, shortcodesFrom]
  | case2 c cs style icon rest h ih =>
    rw [scanFrom, cut_of_some h]
    split
    · rename_i style' icon' rest' h'
      rw [h] at h'
      cases h'
      -- the next shortcode begins after this one and the text between them
      simp only [ih, shortcodesFrom, markText, Text.byteLength_append, Text.byteLength]
      congr 2
      omega
    · simp_all
  | case3 c cs h ih =>
    rw [scanFrom, cut_of_none h]
    split
    · simp_all
    · simp only [ih, Text.byteLength]
      congr 1
      omega

/-- A text has no shortcode exactly when its pieces have none. -/
theorem scan_eq_nil_iff {text : String} : scan text = [] ↔ (cut text.toList).marks = [] := by
  rw [scan, scanFrom_eq_shortcodes]
  cases (cut text.toList).marks <;> simp [shortcodesFrom]

/-! ### Fragments -/

private theorem gap_append (cs ds es : List Char) :
    gap (cs ++ (ds ++ es)) (Text.byteLength cs) (Text.byteLength cs + Text.byteLength ds) =
      textNodes ds := by
  rw [gap, textNodes, Text.sliceBytes_append]
  by_cases hds : ds = []
  · simp [hds, Text.byteLength]
  · have : Text.byteLength ds ≠ 0 := mt Text.byteLength_eq_zero_iff.mp hds
    rw [if_pos (by omega), if_neg hds]

/-- Built with the positions of its own pieces, the nodes for the rest of a text are the pieces in
order. -/
theorem fragmentFrom_shortcodesFrom (classes : Classes) (before lead : List Char)
    (marks : List Mark) :
    fragmentFrom classes (before ++ (lead ++ marks.flatMap markText)) (Text.byteLength before)
        (shortcodesFrom (Text.byteLength before + Text.byteLength lead) marks) =
      textNodes lead ++ marks.flatMap (markNodes classes) := by
  induction marks generalizing before lead with
  | nil =>
    simp only [shortcodesFrom, fragmentFrom, Text.byteLength_append, List.flatMap_nil]
    simpa [Text.byteLength] using gap_append before lead []
  | cons mark marks ih =>
    have ih := ih (before ++ lead ++ spelling mark.style mark.icon) mark.after
    simp only [shortcodesFrom, fragmentFrom, gap_append, Shortcode.stop, List.flatMap_cons]
    simp only [Text.byteLength_append, markText, List.append_assoc, Nat.add_assoc] at ih ⊢
    simp [ih, markNodes]

/-- The replacement of a text consists of its pieces; a text without shortcodes has none. -/
theorem replace?_eq (classes : Classes) (text : String) :
    replace? classes text =
      if (cut text.toList).marks = [] then none else some ((cut text.toList).nodes classes) := by
  split
  · rename_i h
    rw [replace?, scan_eq_nil_iff.mpr h]
  · rename_i h
    have hne : scan text ≠ [] := mt scan_eq_nil_iff.mp h
    have hfragment : fragment classes text (scan text) = (cut text.toList).nodes classes := by
      rw [fragment, if_neg (by simpa using hne), scan, scanFrom_eq_shortcodes]
      -- the positions are those of the pieces, so the text has to be written as its pieces
      conv => lhs; arg 2; rw [← text_cut text.toList]
      simpa [Text.byteLength, nodes, Cut.text] using
        fragmentFrom_shortcodesFrom classes [] (cut text.toList).lead (cut text.toList).marks
    rw [replace?]
    split
    · contradiction
    · rw [← hfragment]

/-! ### Text between shortcodes -/

/-- Whether a text has no shortcode. -/
def IsPlain (cs : List Char) : Prop :=
  (cut cs).marks = []

private theorem isPlain_nil : IsPlain [] := by
  simp [IsPlain, cut]

theorem replace?_eq_none_iff {classes : Classes} {text : String} :
    replace? classes text = none ↔ IsPlain text.toList := by
  rw [replace?_eq, IsPlain]
  split <;> simp_all

/-- What begins no shortcode within a longer text begins none by itself, so that the text before
the first shortcode is plain. -/
theorem isPlain_lead (cs : List Char) : IsPlain (cut cs).lead := by
  induction cs using cut.induct with
  | case1 => simpa [cut] using isPlain_nil
  | case2 c cs style icon rest h ih =>
    rw [cut_of_some h]
    exact isPlain_nil
  | case3 c cs h ih =>
    have happend : c :: cs = (c :: (cut cs).lead) ++ (cut cs).marks.flatMap markText := by
      rw [List.cons_append]
      exact congrArg (c :: ·) (text_cut cs).symm
    have hlead : readShortcode? (c :: (cut cs).lead) = none :=
      readShortcode?_eq_none_of_append (happend ▸ h)
    rw [cut_of_none h]
    rw [IsPlain, cut_of_none hlead]
    exact ih

/-- The text after each shortcode, up to the next one, is plain. -/
theorem isPlain_after {cs : List Char} {mark : Mark} (hmark : mark ∈ (cut cs).marks) :
    IsPlain mark.after := by
  induction cs using cut.induct with
  | case1 => simp [cut] at hmark
  | case2 c cs style icon rest h ih =>
    rw [cut_of_some h] at hmark
    rcases List.mem_cons.mp hmark with rfl | hmark
    · exact isPlain_lead rest
    · exact ih hmark
  | case3 c cs h ih =>
    rw [cut_of_none h] at hmark
    exact ih hmark

end IconMarkup.Icon
