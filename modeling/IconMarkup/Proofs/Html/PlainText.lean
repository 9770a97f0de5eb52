import IconMarkup.Proofs.Html.RoundTrip
import IconMarkup.Proofs.Icon.Processing
import IconMarkup.Proofs.Text.Decoders

/-!
# Text without tags

An HTML text without `<` is one piece of running text. If no shortcode is in it, processing decodes
it and escapes it again, and the outcome means what `unescape` reads in it, for every decoder
(`decode_process_ofHtml`). So a decoder that knows more references than `unescape` reads the same
before and after exactly if the text has none of those.
-/

namespace IconMarkup

open Html Icon Config

namespace Html

/-- A document type declaration begins with a tag. -/
private theorem splitDoctype_of_lt_notMem {cs : List Char} (h : '<' ∉ cs) :
    splitDoctype cs = ([], cs) := by
  refine if_neg fun hword => h ?_
  obtain ⟨second, third, rest, hshape, -⟩ := BeginsDoctype.shape hword
  exact (List.dropWhile_sublist _).subset (hshape ▸ List.mem_cons_self ..)

/-- Text without tags is one token, unless it is empty. -/
private theorem ofText_of_lt_notMem {cs : List Char} (h : '<' ∉ cs) :
    SourceNode.ofText cs = if cs = [] then [] else [.text cs] := by
  split
  · rename_i hnil
    rw [hnil, SourceNode.ofText, tokens, nest, closeAll, List.reverse_nil]
  · rename_i hne
    have htokens : tokens (cs ++ []) = .text cs :: tokens [] :=
      tokens_append_of_text hne h (by simp)
    rw [List.append_nil, tokens] at htokens
    rw [SourceNode.ofText, htokens, nest, nest, closeAll, List.reverse_singleton]

end Html

/-- Processing text without tags and without shortcodes decodes it and escapes it again. -/
private theorem toList_process_ofHtml_of_lt_notMem {text : String} (settings : Settings)
    (hlt : '<' ∉ text.toList)
    (hplain : scan (String.ofList (Text.unescape text.toList)) = []) :
    (process (.ofHtml text) settings).toList = Text.escapeText (Text.unescape text.toList) := by
  by_cases hnil : text.toList = []
  · have hdocument : Document.ofHtml text = .ofNodes [] := by
      rw [Document.ofHtml, splitDoctype_of_lt_notMem hlt]
      simp only [ofText_of_lt_notMem hlt, if_pos hnil]
      rfl
    rw [hdocument, toList_process_of_collect_eq_nil rfl, hnil, Text.unescape]
    rfl
  · have hdocument : Document.ofHtml text =
        .ofNodes [.text (String.ofList (Text.unescape text.toList))] := by
      rw [Document.ofHtml, splitDoctype_of_lt_notMem hlt]
      simp only [ofText_of_lt_notMem hlt, if_neg hnil]
      rfl
    have hcollect : collect (.ofNodes [.text (String.ofList (Text.unescape text.toList))])
        settings = [] := by
      simp [collect, Document.ofNodes, Element.offeredTexts, offeredTexts, Node.offeredTexts,
        foundIn, hplain]
    rw [hdocument, toList_process_of_collect_eq_nil hcollect]
    simp [markupOf, Node.markup]

/-- What text without tags and without shortcodes means after processing is what `unescape` reads
in it, for every decoder. So a decoder that knows further references reads the same before and
after exactly if `unescape` reads the text as the decoder does. -/
theorem decode_process_ofHtml (decoder : Text.Decoder) {text : String} (settings : Settings)
    (hlt : '<' ∉ text.toList)
    (hplain : scan (String.ofList (Text.unescape text.toList)) = []) :
    decoder.decode (process (.ofHtml text) settings).toList = Text.unescape text.toList ∧
      (decoder.decode (process (.ofHtml text) settings).toList = decoder.decode text.toList ↔
        decoder.decode text.toList = Text.unescape text.toList) := by
  have hdecode : decoder.decode (process (.ofHtml text) settings).toList =
      Text.unescape text.toList := by
    rw [toList_process_ofHtml_of_lt_notMem settings hlt hplain, decoder.decode_escapeText]
  exact ⟨hdecode, by rw [hdecode, eq_comm]⟩

/-- A reference to a name that only the decoder knows is read as its letters after processing. -/
theorem not_decode_process_ofHtml_copy :
    let decoder := Text.Decoder.withNames fun name =>
      if name = "copy".toList then some '©' else none
    '<' ∉ "&copy;".toList ∧ scan (String.ofList (Text.unescape "&copy;".toList)) = [] ∧
      decoder.decode "&copy;".toList = ['©'] ∧
      decoder.decode (process (.ofHtml "&copy;") {}).toList = "&copy;".toList := by
  intro decoder
  have hunescape : Text.unescape "&copy;".toList = "&copy;".toList := by decide +kernel
  have hplain : scan (String.ofList (Text.unescape "&copy;".toList)) = [] := by decide +kernel
  have hlt : '<' ∉ "&copy;".toList := by decide
  refine ⟨hlt, hplain, by decide +kernel, ?_⟩
  rw [(decode_process_ofHtml decoder {} hlt hplain).1, hunescape]

end IconMarkup
