/-!
# Leading texts

What follows a given text at the beginning of another one. The main fact is
`afterLead?_eq_some_iff`: nothing but the leading text is taken off.
-/

namespace IconMarkup.Text

/-- What follows a leading text, if a text begins with it. -/
def afterLead? : (lead : List Char) → List Char → Option (List Char)
  | [], cs => some cs
  | _ :: _, [] => none
  | c :: lead, d :: cs => if c = d then afterLead? lead cs else none

theorem afterLead?_eq_some_iff {lead cs rest : List Char} :
    afterLead? lead cs = some rest ↔ cs = lead ++ rest := by
  induction lead generalizing cs with
  | nil => simp [afterLead?]
  | cons c lead ih =>
    cases cs with
    | nil => simp [afterLead?]
    | cons d cs =>
      by_cases h : c = d
      · simp [afterLead?, h, ih]
      · simp [afterLead?, h, Ne.symm h]

end IconMarkup.Text
