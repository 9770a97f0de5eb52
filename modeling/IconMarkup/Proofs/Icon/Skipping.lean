import IconMarkup.Proofs.Config.Values
import IconMarkup.Proofs.Html.Pieces
import IconMarkup.Proofs.Tree.Splicing

/-!
# What the skip list does

Which texts of a page are offered for replacement: running text without any element around it whose
name is one of the list, in any case and with white space around it there (`Piece.offered?`). With
settings read from a text, a walk over the page offers exactly these texts, in order; the same are
scanned; and everything else is written as if nothing was replaced (`honoursSkips_of_ofText?`).
-/

namespace IconMarkup

open Html Icon Config Toml

/-! ### Skipped elements -/

/-- Whether the name of an element is that of an entry of the skip list, apart from case and from
white space around the entry. -/
def SameName (name : List Char) (entry : String) : Prop :=
  (String.ofList name).toLower = (Text.trim entry).toLower

/-- Whether one of some elements is named in the skip list. -/
def AnySkipped (listed : List String) (names : List (List Char)) : Prop :=
  ∃ name ∈ names, ∃ entry ∈ listed, SameName name entry

instance (name : List Char) (entry : String) : Decidable (SameName name entry) :=
  inferInstanceAs (Decidable (_ = _))

instance (listed : List String) (names : List (List Char)) : Decidable (AnySkipped listed names) :=
  inferInstanceAs (Decidable (∃ name ∈ names, ∃ entry ∈ listed, SameName name entry))

/-- The text of a piece, if it is running text outside skipped elements. -/
def Html.Piece.offered? (listed : List String) (piece : Piece) : Option String :=
  match piece.part with
  | .text content => if AnySkipped listed piece.ancestors then none else some content
  | _ => none

/-- The texts that are offered, in order. -/
def offeredPieces (listed : List String) (pieces : List Piece) : List String :=
  pieces.filterMap (·.offered? listed)

/-- The markup of a piece once icons are in the place of shortcodes: a text that is offered is
replaced, and everything else stays as it is. -/
def Html.Piece.processed (classes : Classes) (listed : List String) (piece : Piece) : List Char :=
  match piece.offered? listed with
  | some content =>
    if anyVoid piece.ancestors then []
    else markupOf ((replace? classes content).getD [.text content])
  | none => piece.written

variable {listed : List String} {classes : Classes} {outer : List (List Char)} {piece : Piece}

private theorem offered?_eq_some_iff {content : String} :
    piece.offered? listed = some content ↔ piece.part = .text content ∧
      ∀ name ∈ piece.ancestors, ∀ entry ∈ listed, ¬ SameName name entry := by
  obtain ⟨ancestors, part⟩ := piece
  cases part with
  | text content' =>
    have hnone : (∀ name ∈ ancestors, ∀ entry ∈ listed, ¬ SameName name entry) ↔
        ¬ AnySkipped listed ancestors := by
      simp [AnySkipped]
    rw [hnone, Part.text.injEq, and_comm]
    change (if AnySkipped listed ancestors then none else some content') = some content ↔ _
    rw [Option.ite_none_left_eq_some, Option.some_inj]
  | markup written => simp [Piece.offered?]
  | raw content' => simp [Piece.offered?]

private theorem contains_map_normalTag_iff {name : List Char} :
    (listed.map normalTag).contains (String.ofList name).toLower = true ↔
      ∃ entry ∈ listed, SameName name entry := by
  rw [List.contains_iff_mem, List.mem_map]
  exact exists_congr fun entry => and_congr_right fun _ => eq_comm

private theorem anySkipped_of_suffix {inner : List (List Char)} (h : outer <:+ inner)
    (houter : AnySkipped listed outer) : AnySkipped listed inner := by
  obtain ⟨name, hname, hentry⟩ := houter
  exact ⟨name, h.subset hname, hentry⟩

private theorem anySkipped_cons_iff {name : List Char} (houter : ¬ AnySkipped listed outer) :
    AnySkipped listed (name :: outer) ↔
      (listed.map normalTag).contains (String.ofList name).toLower = true := by
  rw [contains_map_normalTag_iff, AnySkipped]
  simp only [List.mem_cons, exists_eq_or_imp]
  exact or_iff_left houter

private theorem offered?_of_anySkipped (h : AnySkipped listed piece.ancestors) :
    piece.offered? listed = none := by
  obtain ⟨ancestors, part⟩ := piece
  cases part with
  | text content => exact if_pos h
  | markup written => rfl
  | raw content => rfl

theorem offeredPieces_append (first second : List Piece) :
    offeredPieces listed (first ++ second) =
      offeredPieces listed first ++ offeredPieces listed second :=
  List.filterMap_append

/-! ### Offered texts -/

/-- The texts of an element that are offered are those inside it. -/
private theorem offeredPieces_element (name : List Char) (attributes : List SourceAttribute)
    (children : List SourceNode) (outer : List (List Char)) :
    offeredPieces listed ((SourceNode.element name attributes children).pieces outer) =
      offeredPieces listed (piecesInside name outer children) := by
  rw [pieces_element, offeredPieces, List.filterMap_cons_none rfl, List.filterMap_append,
    List.filterMap_cons_none rfl, List.filterMap_nil, List.append_nil]
  rfl

private theorem offeredPieces_piecesInside_of_anySkipped {name : List Char}
    {children : List SourceNode} (h : AnySkipped listed (name :: outer)) :
    offeredPieces listed (piecesInside name outer children) = [] := by
  refine List.filterMap_eq_nil_iff.mpr fun piece hpiece => offered?_of_anySkipped ?_
  exact anySkipped_of_suffix (suffix_of_mem_piecesInside hpiece) h

mutual

private theorem SourceNode.offeredPieces_pieces (listed : List String) :
    ∀ (node : SourceNode) {outer : List (List Char)}, ¬ AnySkipped listed outer →
      offeredPieces listed (node.pieces outer) =
        node.toNode.offeredTexts (listed.map normalTag)
  | .element name attributes children, outer, houter => by
    rw [offeredPieces_element, SourceNode.toNode, Node.offeredTexts]
    split
    · rename_i hskip
      exact offeredPieces_piecesInside_of_anySkipped ((anySkipped_cons_iff houter).mpr hskip)
    · rename_i hskip
      rw [piecesInside]
      split
      · rw [offeredTexts_rawText]
        rfl
      · exact offeredPieces_piecesOf listed children (mt (anySkipped_cons_iff houter).mp hskip)
  | .text content, outer, houter => by
    simp [offeredPieces, SourceNode.pieces, SourceNode.toNode, Node.offeredTexts, Piece.offered?,
      houter]
  | .comment source, outer, houter => by
    simp [offeredPieces, SourceNode.pieces, SourceNode.toNode, Node.offeredTexts, Piece.offered?]

/-- The offered pieces of nodes are the offered texts of what is read from them. -/
private theorem offeredPieces_piecesOf (listed : List String) :
    ∀ (nodes : List SourceNode) {outer : List (List Char)}, ¬ AnySkipped listed outer →
      offeredPieces listed (piecesOf outer nodes) =
        offeredTexts (listed.map normalTag) (toNodes nodes)
  | [], outer, _ => by
    rw [piecesOf, toNodes]
    rfl
  | node :: rest, outer, houter => by
    rw [piecesOf, toNodes, offeredTexts, offeredPieces_append,
      SourceNode.offeredPieces_pieces listed node houter,
      offeredPieces_piecesOf listed rest houter]

end

/-- The texts of a page that are offered are those of its pieces. -/
theorem offeredTexts_ofHtml (listed : List String) (text : String) :
    (Document.ofHtml text).root.offeredTexts (listed.map normalTag) =
      offeredPieces listed (pieces text) := by
  have hnone : ¬ AnySkipped listed [] := by simp [AnySkipped]
  rw [pieces, offeredPieces, List.filterMap_cons_none rfl, ← offeredPieces,
    offeredPieces_piecesOf listed _ hnone]
  change offeredTexts _ (rawText _ ++ toNodes _) = _
  rw [offeredTexts_append, offeredTexts_rawText, List.nil_append]
  rfl

/-! ### Replaced texts -/

/-- A piece that is not offered is written as if nothing was replaced. -/
private theorem processed_of_none (h : piece.offered? listed = none) :
    piece.processed classes listed = piece.written := by
  rw [Piece.processed, h]

private theorem showsMarkup_processed (classes : Classes) (listed : List String) :
    ShowsMarkup (·.processed classes listed) where
  markup h := (processed_of_none rfl).trans (showsMarkup_written.markup h)
  raw h := (processed_of_none rfl).trans (showsMarkup_written.raw h)
  void {piece} h := by
    rw [Piece.processed]
    split
    · exact if_pos h
    · exact showsMarkup_written.void h

/-- A skipped element is written as if nothing was replaced. -/
private theorem flatMap_processed_of_anySkipped {name : List Char}
    {attributes : List SourceAttribute}
    {children : List SourceNode} (h : AnySkipped listed (name :: outer)) :
    ((SourceNode.element name attributes children).pieces outer).flatMap
        (·.processed classes listed) =
      ((SourceNode.element name attributes children).pieces outer).flatMap Piece.written := by
  refine List.flatMap_congr fun piece hpiece => processed_of_none ?_
  rw [pieces_element, List.mem_cons, List.mem_append, List.mem_singleton] at hpiece
  rcases hpiece with rfl | hinside | rfl
  · rfl
  · exact offered?_of_anySkipped (anySkipped_of_suffix (suffix_of_mem_piecesInside hinside) h)
  · rfl

mutual

private theorem SourceNode.flatMap_processed (classes : Classes) (listed : List String) :
    ∀ node : SourceNode, node.Throughout SourceNode.IsRead → ∀ {outer : List (List Char)},
      anyVoid outer = false → ¬ AnySkipped listed outer →
        (node.pieces outer).flatMap (·.processed classes listed) =
          markupOf (node.toNode.rewrite (listed.map normalTag) (replace? classes))
  | .element name attributes children, h, outer, houter, hlisted => by
    rw [SourceNode.toNode, Node.rewrite]
    split
    · rename_i hskip
      have hnode : ThroughoutAll SourceNode.IsRead [.element name attributes children] :=
        ⟨h, trivial⟩
      rw [flatMap_processed_of_anySkipped ((anySkipped_cons_iff hlisted).mpr hskip)]
      have hwritten := flatMap_written_piecesOf _ hnode houter
      rwa [piecesOf, piecesOf, List.append_nil, toNodes, toNodes, SourceNode.toNode] at hwritten
    · rename_i hskip
      rw [markupOf, markupOf, List.append_nil]
      refine (showsMarkup_processed classes listed).flatMap_element h.1.1 houter (fun hraw => ?_)
        fun hraw hinner => ?_
      · rw [if_pos hraw, rewriteNodes_rawText]
      · rw [hraw]
        exact flatMap_processed_piecesOf classes listed children h.2 hinner
          (mt (anySkipped_cons_iff hlisted).mp hskip)
  | .text content, _, outer, houter, hlisted => by
    have hoffered : Piece.offered? listed ⟨outer, .text (String.ofList (Text.unescape content))⟩ =
        some (String.ofList (Text.unescape content)) := if_neg hlisted
    rw [SourceNode.pieces, SourceNode.toNode, Node.rewrite, List.flatMap_singleton, Piece.processed,
      hoffered]
    simp [houter]
  | .comment source, _, outer, houter, _ => by
    rw [SourceNode.pieces, SourceNode.toNode, Node.rewrite, List.flatMap_singleton,
      (showsMarkup_processed classes listed).markup houter]
    simp [markupOf, Node.markup]

/-- Nodes with icons in the place of shortcodes are written as their pieces are. -/
private theorem flatMap_processed_piecesOf (classes : Classes) (listed : List String) :
    ∀ nodes : List SourceNode, ThroughoutAll SourceNode.IsRead nodes →
      ∀ {outer : List (List Char)}, anyVoid outer = false → ¬ AnySkipped listed outer →
        (piecesOf outer nodes).flatMap (·.processed classes listed) =
          markupOf (rewriteNodes (listed.map normalTag) (replace? classes) (toNodes nodes))
  | [], _, outer, _, _ => by
    rw [piecesOf, toNodes]
    rfl
  | node :: rest, h, outer, houter, hlisted => by
    rw [piecesOf, toNodes, rewriteNodes, markupOf_append, List.flatMap_append,
      SourceNode.flatMap_processed classes listed node h.1 houter hlisted,
      flatMap_processed_piecesOf classes listed rest h.2 houter hlisted]

end

/-! ### Pages -/

/-- Whether settings leave out exactly what is listed: a walk over a page offers the texts outside
listed elements to its replacer, scanning finds what is in these texts, and processing writes
everything else as it is written without icons. -/
structure HonoursSkips (listed : List String) (settings : Settings) (page : String) : Prop where
  offered?_iff : ∀ piece ∈ pieces page, ∀ content, piece.offered? listed = some content ↔
    piece.part = .text content ∧
      ∀ name ∈ piece.ancestors, ∀ entry ∈ listed, ¬ SameName name entry
  offered : ∀ {σ : Type} (replace : Replacer σ) (state : σ),
    ((Document.ofHtml page).root.splice settings.render.skipElements replace state).2.2 =
      stateAfter replace state (offeredPieces listed (pieces page))
  scanned : collect (.ofHtml page) settings =
    (offeredPieces listed (pieces page)).flatMap (foundIn settings.icons)
  rendered : (Document.ofHtml page).render.toList = (pieces page).flatMap Piece.written
  processed : (process (.ofHtml page) settings).toList =
    (pieces page).flatMap (·.processed settings.icons listed)
  kept : ∀ piece ∈ pieces page, piece.offered? listed = none →
    piece.processed settings.icons listed = piece.written

/-- The skip list of a table, if it has one, or else the default one. -/
def listedSkips (table : Table) : List String :=
  (givenSkips? table).getD ["script", "style"]

/-- Settings that are read skip what the table lists. -/
private theorem skipElements_of_gives {table : Table} {settings : Settings}
    (h : Gives (some table) settings) :
    settings.render.skipElements = (listedSkips table).map normalTag := by
  rw [h.skipElements, Option.bind_some, listedSkips]
  rcases givenSkips? table with _ | tags
  · decide +kernel
  · rfl

/-- The skip list of a text of settings is honoured, entry by entry. -/
theorem honoursSkips_of_ofText? {text : String} {settings : Settings} {unknown : List FieldPath}
    (h : Settings.ofText? text = some (settings, unknown)) (page : String) :
    ∃ table, Table.ofText? text = some table ∧
      HonoursSkips (listedSkips table) settings page := by
  obtain ⟨table, htable, hgives⟩ := gives_of_ofText? h
  have hskip := skipElements_of_gives hgives
  refine ⟨table, htable, ⟨fun piece _ content => offered?_eq_some_iff, fun replace state => ?_, ?_,
    toList_render_ofHtml page, ?_, fun piece _ hpiece => processed_of_none hpiece⟩⟩
  · rw [hskip, ← offeredTexts_ofHtml]
    exact state_spliceNodes state _
  · rw [collect, hskip, offeredTexts_ofHtml]
  · have hnone : ¬ AnySkipped (listedSkips table) [] := by simp [AnySkipped]
    rw [Document.ofHtml, toList_process_ofNodes, hskip, rewriteNodes_append,
      rewriteNodes_rawText, markupOf_append, markupOf_rawText, pieces, List.flatMap_cons,
      flatMap_processed_piecesOf _ _ _ (isRead_ofText _) rfl hnone,
      (showsMarkup_processed _ _).raw rfl]

/-- Settings that leave out code, in another spelling than the page. -/
def skipCode : String := "[render]\nskip_elements = [\" CODE\"]\n"

/-- A page with a shortcode in code, and another one behind it. -/
def codePage : String := "<Code><b>:fa-solid:x:</b></Code>:fa-solid:y:"

/-- The shortcode in code is left alone, and the one behind it is replaced. -/
theorem honoursSkips_codePage :
    Settings.ofText? skipCode = some ({ render := { skipElements := ["code"] } }, []) ∧
      HonoursSkips [" CODE"] { render := { skipElements := ["code"] } } codePage ∧
      process (.ofHtml codePage) { render := { skipElements := ["code"] } } =
        "<code><b>:fa-solid:x:</b></code><i class=\"fa-solid fa-y\" aria-hidden=\"true\"></i>" := by
  have hsettings : Settings.ofText? skipCode =
      some ({ render := { skipElements := ["code"] } }, []) := by
    decide +kernel
  have hlisted : (Table.ofText? skipCode).map listedSkips = some [" CODE"] := by
    decide +kernel
  obtain ⟨table, htable, hhonours⟩ := honoursSkips_of_ofText? hsettings codePage
  rw [htable, Option.map_some, Option.some_inj] at hlisted
  rw [hlisted] at hhonours
  exact ⟨hsettings, hhonours, by decide +kernel⟩

end IconMarkup
