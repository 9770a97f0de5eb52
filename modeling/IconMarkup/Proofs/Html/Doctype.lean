import IconMarkup.Proofs.Html.Legible
import IconMarkup.Proofs.Icon.Processing
import IconMarkup.Proofs.Text.Slices

/-!
# Document type declarations

What `splitDoctype` cuts off a text: white space and a declaration up to its first `>`
(`IsDoctype`), or nothing if the text does not begin like that (`splitDoctype_cases`). The cut can
be found by the byte offsets of the text without its white space, and then falls between two
characters of the whole text (`cutDoctype?_eq`).

`doctype_passes` is all that can be said of such a declaration: it is found exactly where there is
one, nothing is lost, and processing writes it as it is in front of what it makes of the rest.
-/

namespace IconMarkup

open Icon Config

namespace Html

/-- Whether a text is a document type declaration with white space before it: `<!doctype` in any
case of its letters, and everything up to the first `>`. -/
inductive IsDoctype : List Char → Prop
  | intro {blanks lead content : List Char} (hblanks : ∀ c ∈ blanks, Text.isBlank c = true)
    (hlead : lead.map Char.toLower = doctypeLead.toList) (hcontent : '>' ∉ content) :
    IsDoctype (blanks ++ (lead ++ content) ++ ['>'])

/-- Cuts after a document type declaration at byte offsets: of the text without the white space
before it, nine bytes are looked at, and the offset of the first `>` counts from there. `none` if
the text would be cut inside a character. -/
def cutDoctype? (cs : List Char) : Option (List Char × List Char) :=
  let trimmed := Text.trimStart cs
  match Text.cutAt? doctypeLead.utf8ByteSize trimmed, Text.offsetOf? '>' trimmed with
  | some (lead, _), some stop =>
    if isWordInAnyCase doctypeLead lead then
      Text.cutAt? (Text.byteLength cs - Text.byteLength trimmed + stop + 1) cs
    else some ([], cs)
  | _, _ => some ([], cs)

variable {cs declared doctype rest lead content : List Char}

private theorem IsDoctype.ne_nil (h : IsDoctype declared) : declared ≠ [] := by
  obtain ⟨-, -, -⟩ := h
  simp

/-! ### What a declaration begins with -/

private theorem beginsDoctype_append (h : lead.map Char.toLower = doctypeLead.toList)
    (more : List Char) :
    BeginsDoctype (lead ++ more) := by
  have hlength : lead.length = doctypeLead.length := by
    rw [← List.length_map Char.toLower, h, String.length_toList]
  rw [BeginsDoctype, List.take_append_of_le_length (Nat.le_of_eq hlength.symm),
    List.take_of_length_le (Nat.le_of_eq hlength), isWordInAnyCase, h]
  exact beq_self_eq_true _

private theorem close_notMem_lead (h : lead.map Char.toLower = doctypeLead.toList) :
    '>' ∉ lead := by
  intro hmem
  have hword := List.mem_map_of_mem (f := Char.toLower) hmem
  rw [h] at hword
  exact absurd hword (by decide)

private theorem utf8Size_toLower (c : Char) : c.toLower.utf8Size = c.utf8Size := by
  unfold Char.toLower
  split
  · -- an upper-case letter and a lower-case one take one byte each
    rename_i hupper
    have hhigh : c.val.toNat ≤ 90 := UInt32.le_iff_toNat_le.mp hupper.2
    have hlow : (c.val + 32).toNat ≤ 127 := by
      rw [UInt32.toNat_add]
      simp only [UInt32.reduceToNat]
      omega
    have hone : ∀ d : Char, d.val.toNat ≤ 127 → d.utf8Size = 1 := fun d hd =>
      if_pos (UInt32.le_iff_toNat_le.mpr hd)
    rw [hone _ hlow, hone c (by omega)]
  · rfl

private theorem byteLength_of_map_toLower (h : lead.map Char.toLower = doctypeLead.toList) :
    Text.byteLength lead = doctypeLead.utf8ByteSize := by
  have hmap : ∀ ds : List Char, Text.byteLength (ds.map Char.toLower) = Text.byteLength ds := by
    intro ds
    induction ds with
    | nil => rfl
    | cons d ds ih => rw [List.map_cons, Text.byteLength, utf8Size_toLower, ih, Text.byteLength]
  rw [← Text.byteLength_toList, ← h, hmap]

/-! ### Where a text is cut -/

/-- The white space before a declaration, and the declaration up to its end. -/
private theorem spans_of_isDoctype {blanks : List Char}
    (hblanks : ∀ c ∈ blanks, Text.isBlank c = true)
    (hlead : lead.map Char.toLower = doctypeLead.toList) (hcontent : '>' ∉ content)
    (rest : List Char) :
    span Text.isBlank (blanks ++ (lead ++ content) ++ '>' :: rest) =
        (blanks, lead ++ content ++ '>' :: rest) ∧
      span (· != '>') (lead ++ content ++ '>' :: rest) = (lead ++ content, '>' :: rest) := by
  constructor
  · obtain ⟨second, third, after, hshape, -⟩ :=
      (beginsDoctype_append hlead (content ++ '>' :: rest)).shape
    rw [List.append_assoc]
    refine span_append hblanks ?_
    rw [List.append_assoc, hshape]
    simp [Text.isBlank]
  · refine span_append (fun c hc => ?_) (by simp)
    have hne : c ≠ '>' := by
      rintro rfl
      exact (List.mem_append.mp hc).elim (close_notMem_lead hlead) hcontent
    simpa using hne

/-- A declaration is cut off, whatever follows it. -/
theorem splitDoctype_of_isDoctype (h : IsDoctype declared) (rest : List Char) :
    splitDoctype (declared ++ rest) = (declared, rest) := by
  obtain @⟨blanks, lead, content, hblanks, hlead, hcontent⟩ := h
  obtain ⟨hblank, hclose⟩ := spans_of_isDoctype hblanks hlead hcontent rest
  have hword := beginsDoctype_append hlead (content ++ '>' :: rest)
  rw [← List.append_assoc] at hword
  rw [span, Prod.mk.injEq] at hblank hclose
  rw [List.append_assoc, List.singleton_append, splitDoctype, Text.trimStart, hblank.1, hblank.2,
    hclose.1, hclose.2]
  exact if_pos hword

/-- Nothing is lost, and what is cut off is a declaration. -/
theorem isDoctype_of_splitDoctype (h : splitDoctype cs = (doctype, rest)) :
    doctype ++ rest = cs ∧ (doctype ≠ [] → IsDoctype doctype) := by
  rw [splitDoctype] at h
  split at h
  · rename_i hword
    split at h
    · rename_i close after hshape
      cases h
      have hend := List.head?_dropWhile_not (· != '>') (Text.trimStart cs)
      rw [hshape] at hend
      obtain rfl : close = '>' := by simpa using hend
      have hlead : ((Text.trimStart cs).take doctypeLead.length).map Char.toLower =
          doctypeLead.toList := eq_of_beq hword
      -- there is no `>` in the first nine characters, so that the declaration goes beyond them
      have hdeclaration : (Text.trimStart cs).takeWhile (· != '>') =
          (Text.trimStart cs).take doctypeLead.length ++
            ((Text.trimStart cs).drop doctypeLead.length).takeWhile (· != '>') := by
        rw [← List.takeWhile_append_of_pos, List.take_append_drop]
        intro c hc
        simpa using ne_of_mem_of_not_mem hc (close_notMem_lead hlead)
      constructor
      · rw [List.append_assoc, List.append_assoc, List.singleton_append, ← hshape,
          List.takeWhile_append_dropWhile, Text.trimStart, List.takeWhile_append_dropWhile]
      · intro _
        rw [hdeclaration]
        refine .intro (fun _ hc => List.mem_takeWhile_imp hc) hlead fun hmem => ?_
        simpa using List.mem_takeWhile_imp hmem
    · cases h
      exact ⟨rfl, absurd rfl⟩
  · cases h
    exact ⟨rfl, absurd rfl⟩

/-- Either a declaration at the start of a text is cut off, or there is none and nothing is. -/
theorem splitDoctype_cases (cs : List Char) :
    (∃ declared rest, IsDoctype declared ∧ declared ++ rest = cs ∧
        splitDoctype cs = (declared, rest)) ∨
      (∀ declared, IsDoctype declared → ¬ declared <+: cs) ∧ splitDoctype cs = ([], cs) := by
  obtain ⟨doctype, rest, h⟩ : ∃ doctype rest, splitDoctype cs = (doctype, rest) := ⟨_, _, rfl⟩
  obtain ⟨happend, hdoctype⟩ := isDoctype_of_splitDoctype h
  rcases eq_or_ne doctype [] with rfl | hne
  · refine .inr ⟨?_, by rw [h, ← happend, List.nil_append]⟩
    rintro declared hdeclared ⟨more, rfl⟩
    rw [splitDoctype_of_isDoctype hdeclared, Prod.mk.injEq] at h
    exact hdeclared.ne_nil h.1
  · exact .inl ⟨doctype, rest, hdoctype hne, happend, h⟩

/-! ### The cut at byte offsets -/

/-- The offsets of the text without its white space cut the text itself, and between two of its
characters. -/
theorem cutDoctype?_eq (cs : List Char) : cutDoctype? cs = some (splitDoctype cs) := by
  rcases splitDoctype_cases cs with ⟨declared, rest, hdeclared, rfl, hsplit⟩ | ⟨hnone, hsplit⟩
  · rw [hsplit]
    obtain @⟨blanks, lead, content, hblanks, hlead, hcontent⟩ := hdeclared
    have hcs : blanks ++ (lead ++ content) ++ ['>'] ++ rest =
        blanks ++ (lead ++ content ++ '>' :: rest) := by simp
    have htrim : Text.trimStart (blanks ++ (lead ++ content ++ '>' :: rest)) =
        lead ++ content ++ '>' :: rest := by
      have hblank := (spans_of_isDoctype hblanks hlead hcontent rest).1
      rw [span, Prod.mk.injEq, List.append_assoc] at hblank
      exact hblank.2
    have hhead : Text.cutAt? doctypeLead.utf8ByteSize (lead ++ content ++ '>' :: rest) =
        some (lead, content ++ '>' :: rest) := by
      rw [← byteLength_of_map_toLower hlead, List.append_assoc]
      exact Text.cutAt?_byteLength_append lead _
    have hword : isWordInAnyCase doctypeLead lead = true := beq_iff_eq.mpr hlead
    have hclose : '>' ∉ lead ++ content := fun hmem =>
      (List.mem_append.mp hmem).elim (close_notMem_lead hlead) hcontent
    have hcut := Text.cutAt?_byteLength_append (blanks ++ (lead ++ content) ++ ['>']) rest
    -- the offset of the `>` in the text without white space, and the white space before it
    have hoffset : Text.byteLength (blanks ++ (lead ++ content ++ '>' :: rest)) -
        Text.byteLength (lead ++ content ++ '>' :: rest) + Text.byteLength (lead ++ content) + 1 =
          Text.byteLength (blanks ++ (lead ++ content) ++ ['>']) := by
      rw [Text.byteLength_append blanks, Nat.add_sub_cancel, Text.byteLength_append _ ['>'],
        Text.byteLength_append blanks]
      rfl
    rw [hcs] at hcut ⊢
    simp only [cutDoctype?, htrim, hhead, Text.offsetOf?_append hclose, hword, if_true, hoffset,
      hcut]
  · rw [hsplit, cutDoctype?]
    split
    · rename_i lead more stop hhead hstop
      split
      · -- there would be a declaration up to the first `>`
        rename_i hword
        exfalso
        have hlead : lead.map Char.toLower = doctypeLead.toList := eq_of_beq hword
        have hmem : '>' ∈ more := by
          by_contra hmem
          rw [← Text.append_of_cutAt? hhead, Text.offsetOf?_eq_none] at hstop
          · cases hstop
          · exact fun h => (List.mem_append.mp h).elim (close_notMem_lead hlead) hmem
        obtain ⟨content, after, rfl, hcontent⟩ := List.eq_append_cons_of_mem hmem
        have hdeclared : IsDoctype (cs.takeWhile Text.isBlank ++ (lead ++ content) ++ ['>']) :=
          .intro (fun _ hc => List.mem_takeWhile_imp hc) hlead hcontent
        refine hnone _ hdeclared ⟨after, ?_⟩
        calc cs.takeWhile Text.isBlank ++ (lead ++ content) ++ ['>'] ++ after
            = cs.takeWhile Text.isBlank ++ (lead ++ (content ++ '>' :: after)) := by simp
          _ = cs.takeWhile Text.isBlank ++ Text.trimStart cs := by rw [Text.append_of_cutAt? hhead]
          _ = cs := List.takeWhile_append_dropWhile
      · rfl
    · rfl

end Html

open Html

/-! ### Processing -/

/-- What is read from a text with a declaration is the declaration, as raw text, and what is read
from the rest. -/
theorem toList_process_ofHtml {text : String} {doctype rest : List Char}
    (h : splitDoctype text.toList = (doctype, rest)) (settings : Settings) :
    (process (.ofHtml text) settings).toList = doctype ++
      (process (.ofNodes (toNodes (SourceNode.ofText rest))) settings).toList := by
  have hdocument : Document.ofHtml text =
      .ofNodes (rawText doctype ++ toNodes (SourceNode.ofText rest)) := by
    rw [Document.ofHtml, h]
  rw [hdocument, toList_process_ofNodes, toList_process_ofNodes, rewriteNodes_append,
    rewriteNodes_rawText, markupOf_append, markupOf_rawText]

/-- A document type declaration passes through. It is found exactly if the text begins with one
after white space, it ends at its first `>`, and nothing is lost; the byte offsets at which it is
cut off lie between characters. What processing makes of the text begins with the declaration as it
was, whatever it contains, and goes on as for the rest alone, unless that has a declaration too. -/
theorem doctype_passes (text : String) :
    ∃ doctype rest, splitDoctype text.toList = (doctype, rest) ∧
      cutDoctype? text.toList = some (doctype, rest) ∧
      doctype ++ rest = text.toList ∧
      (∀ declared, declared = doctype ∧ doctype ≠ [] ↔
        IsDoctype declared ∧ declared <+: text.toList) ∧
      (doctype ≠ [] → (splitDoctype rest).1 = [] → ∀ settings,
        process (.ofHtml text) settings =
          String.ofList doctype ++ process (.ofHtml (String.ofList rest)) settings) := by
  obtain ⟨doctype, rest, h⟩ :
      ∃ doctype rest, splitDoctype text.toList = (doctype, rest) := ⟨_, _, rfl⟩
  obtain ⟨happend, hdoctype⟩ := isDoctype_of_splitDoctype h
  refine ⟨doctype, rest, h, h ▸ cutDoctype?_eq _, happend, fun declared => ⟨?_, ?_⟩,
    fun hne hrest settings => ?_⟩
  · rintro ⟨rfl, hne⟩
    exact ⟨hdoctype hne, rest, happend⟩
  · rintro ⟨hdeclared, more, hmore⟩
    rw [← hmore, splitDoctype_of_isDoctype hdeclared, Prod.mk.injEq] at h
    exact ⟨h.1, h.1 ▸ hdeclared.ne_nil⟩
  · have hnone : splitDoctype (String.ofList rest).toList = ([], rest) := by
      rw [String.toList_ofList]
      refine Prod.ext hrest ?_
      have hall : (splitDoctype rest).1 ++ (splitDoctype rest).2 = rest :=
        (isDoctype_of_splitDoctype rfl).1
      rwa [hrest, List.nil_append] at hall
    rw [← String.toList_inj, String.toList_append, String.toList_ofList, toList_process_ofHtml h,
      toList_process_ofHtml hnone, List.nil_append]

/-- A shortcode in a declaration stays, and so does a reference; white space before it may take more
than one byte. -/
theorem doctype_passes_wideSpace :
    let declaration := "\u3000\u00a0<!DocType é :fa-solid:x: &lt; \">"
    let page := "<p>:fa-solid:x: &lt;</p>"
    splitDoctype (declaration ++ page).toList = (declaration.toList, page.toList) ∧
      declaration.toList ≠ [] ∧ (splitDoctype page.toList).1 = [] ∧
      process (.ofHtml (declaration ++ page)) {} = declaration ++
        "<p><i class=\"fa-solid fa-x\" aria-hidden=\"true\"></i> &lt;</p>" := by
  intro declaration page
  have hsplit : splitDoctype (declaration ++ page).toList =
      (declaration.toList, page.toList) := by
    decide +kernel
  have hrest : (splitDoctype page.toList).1 = [] := by
    decide +kernel
  have hpage : process (.ofHtml page) {} =
      "<p><i class=\"fa-solid fa-x\" aria-hidden=\"true\"></i> &lt;</p>" := by
    decide +kernel
  refine ⟨hsplit, by decide, hrest, ?_⟩
  obtain ⟨doctype, rest, h, -, -, -, hprocess⟩ := doctype_passes (declaration ++ page)
  rw [hsplit, Prod.mk.injEq] at h
  obtain ⟨rfl, rfl⟩ := h
  rw [hprocess (by decide) hrest {}, String.ofList_toList, String.ofList_toList, hpage]

end IconMarkup
