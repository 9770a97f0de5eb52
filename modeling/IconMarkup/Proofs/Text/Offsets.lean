import IconMarkup.Text.Bytes

/-!
# Offsets between characters

A byte offset of a text is valid when it stands between two characters or at an end. The text can
be cut exactly there (`isValid_iff`), an offset fixes the cut (`append_inj_of_byteLength`), and the
slice between two valid offsets is what the text has between them (`dropBytes_eq_append`).
-/

namespace IconMarkup.Text

variable {text : String} {start stop : Nat}

/-- A text can be cut exactly at its valid offsets. -/
theorem isValid_iff :
    (⟨start⟩ : String.Pos.Raw).IsValid text ↔
      ∃ before after, text.toList = before ++ after ∧ byteLength before = start := by
  rw [String.Pos.Raw.isValid_iff_exists_append]
  constructor
  · rintro ⟨first, second, rfl, hstart⟩
    refine ⟨first.toList, second.toList, String.toList_append, ?_⟩
    rw [byteLength_toList]
    exact (congrArg String.Pos.Raw.byteIdx hstart).symm
  · rintro ⟨before, after, htext, rfl⟩
    refine ⟨String.ofList before, String.ofList after, ?_, ?_⟩
    · rw [← String.ofList_append, ← htext, String.ofList_toList]
    · rw [String.Pos.Raw.ext_iff, ← utf8ByteSize_ofList]
      rfl

/-- Of two cuts of a text, the one at the smaller offset cuts the first part of the other. -/
theorem exists_append_of_byteLength_le {before after before' after' : List Char}
    (h : before ++ after = before' ++ after') (hle : byteLength before ≤ byteLength before') :
    ∃ between, before' = before ++ between ∧ after = between ++ after' := by
  rcases List.append_eq_append_iff.mp h with ⟨between, rfl, rfl⟩ | ⟨between, rfl, rfl⟩
  · exact ⟨between, rfl, rfl⟩
  · have hempty : between = [] := by
      rw [byteLength_append] at hle
      exact byteLength_eq_zero_iff.mp (by omega)
    exact ⟨[], by simp [hempty], by simp [hempty]⟩

/-- A text is cut in one way at an offset. -/
theorem append_inj_of_byteLength {before after before' after' : List Char}
    (h : before ++ after = before' ++ after') (heq : byteLength before = byteLength before') :
    before = before' ∧ after = after' := by
  obtain ⟨between, rfl, rfl⟩ := exists_append_of_byteLength_le h (by omega)
  rw [byteLength_append] at heq
  have hempty : between = [] := byteLength_eq_zero_iff.mp (by omega)
  exact ⟨by simp [hempty], by simp [hempty]⟩

/-- The text from a valid offset on begins with the slice up to a later one. -/
theorem dropBytes_eq_append (hstart : (⟨start⟩ : String.Pos.Raw).IsValid text)
    (hstop : (⟨stop⟩ : String.Pos.Raw).IsValid text) (hle : start ≤ stop) :
    dropBytes start text.toList = sliceBytes start stop text.toList ++ dropBytes stop text.toList ∧
      byteLength (sliceBytes start stop text.toList) = stop - start := by
  obtain ⟨before, after, htext, rfl⟩ := isValid_iff.mp hstart
  obtain ⟨before', after', htext', rfl⟩ := isValid_iff.mp hstop
  obtain ⟨between, rfl, rfl⟩ := exists_append_of_byteLength_le (htext.symm.trans htext') hle
  have hslice : sliceBytes (byteLength before) (byteLength (before ++ between)) text.toList =
      between := by
    rw [htext, byteLength_append, sliceBytes_append]
  refine ⟨?_, ?_⟩
  · rw [hslice, htext', dropBytes_byteLength_append, ← htext', htext, dropBytes_byteLength_append]
  · rw [hslice, byteLength_append]
    omega

end IconMarkup.Text
