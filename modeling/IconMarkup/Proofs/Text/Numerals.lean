import Mathlib.Algebra.Group.Nat.Defs
import Mathlib.Data.List.Induction
import IconMarkup.Text.Numeral

/-!
# Numbers and the digits that write them

`Spells` says which number some digits write, each digit in either case. Reading accepts exactly
the digits that write a number, and gives that number (`numeral?_eq_some_iff`). A number is written
by its digits in the base (`spells_toDigits`), and one of few digits is small (`Spells.lt_pow`).
-/

namespace IconMarkup.Text

/-- Whether a character is the digit of a value in a base, which is at most sixteen. -/
def IsDigitOf (base : Nat) (c : Char) (value : Nat) : Prop :=
  value < base ∧ (c = value.digitChar ∨ c = value.digitChar.toUpper)

/-- Whether digits write a number in a base. -/
inductive Spells (base : Nat) : List Char → Nat → Prop
  /-- One digit writes its value. -/
  | one {c : Char} {value : Nat} (h : IsDigitOf base c value) : Spells base [c] value
  /-- A further digit makes all earlier ones worth more. -/
  | more {cs : List Char} {c : Char} {n value : Nat} (hcs : Spells base cs n)
    (hc : IsDigitOf base c value) : Spells base (cs ++ [c]) (n * base + value)

variable {base n : Nat} {cs : List Char}

/-! ### Reading -/

/-- Digits are worth the same in every base that has them. -/
private theorem digitValue?_eq_some_iff_sixteen (hbase : base ≤ 16) {c : Char} {value : Nat} :
    digitValue? base c = some value ↔ value < base ∧ digitValue? 16 c = some value := by
  simp only [digitValue?, Option.ite_none_right_eq_some, Option.some.injEq]
  split
  · omega
  · split
    · omega
    · split <;> omega

private theorem digitValue?_sixteen_digitChar : ∀ value < 16,
    digitValue? 16 value.digitChar = some value ∧
      digitValue? 16 value.digitChar.toUpper = some value := by
  decide

/-- Digits are among the first 128 characters, which can be gone through one by one. -/
private theorem toNat_lt_of_digitValue? {c : Char} {value : Nat}
    (h : digitValue? 16 c = some value) :
    c.toNat < 128 := by
  have hfour : '0'.toNat = 48 ∧ '9'.toNat = 57 ∧ 'a'.toNat = 97 ∧ 'A'.toNat = 65 := by decide
  simp only [digitValue?, Option.ite_none_right_eq_some, Option.some.injEq] at h
  by_cases hdigit : c.isDigit = true
  · have := (Char.isDigit_iff_toNat.mp hdigit).2
    omega
  · rw [if_neg hdigit] at h
    split at h
    · omega
    · split at h <;> omega

private theorem eq_digitChar_of_lt : ∀ n < 128, ∀ value ∈ digitValue? 16 (Char.ofNat n),
    Char.ofNat n = value.digitChar ∨ Char.ofNat n = value.digitChar.toUpper := by
  decide +kernel

/-- What counts as a digit of a base is the digit character of a value below the base, in either
case. -/
theorem digitValue?_eq_some_iff (hbase : base ≤ 16) {c : Char} {value : Nat} :
    digitValue? base c = some value ↔ IsDigitOf base c value := by
  rw [digitValue?_eq_some_iff_sixteen hbase, IsDigitOf, and_congr_right_iff]
  intro hlt
  constructor
  · intro h
    rw [← c.ofNat_toNat]
    exact eq_digitChar_of_lt _ (toNat_lt_of_digitValue? h) value (by rw [c.ofNat_toNat, h]; rfl)
  · obtain ⟨hlower, hupper⟩ := digitValue?_sixteen_digitChar value (by omega)
    rintro (rfl | rfl) <;> assumption

/-- A numeral is read on from the value of what has been read of it. -/
theorem extendNumeral?_append (acc : Nat) (first second : List Char) :
    extendNumeral? base acc (first ++ second) =
      (extendNumeral? base acc first).bind (extendNumeral? base · second) := by
  induction first generalizing acc with
  | nil => rfl
  | cons c first ih =>
    rw [List.cons_append, extendNumeral?, extendNumeral?]
    rcases digitValue? base c with _ | value
    · rfl
    · exact ih _

theorem numeral?_of_ne_nil (h : cs ≠ []) : numeral? base cs = extendNumeral? base 0 cs := by
  rw [numeral?]
  exact h

/-- The last digit is worth its value, and the ones before it are worth the base. -/
private theorem extendNumeral?_concat (cs : List Char) (c : Char) :
    extendNumeral? base 0 (cs ++ [c]) = (extendNumeral? base 0 cs).bind fun n =>
      (digitValue? base c).map (n * base + ·) := by
  rw [extendNumeral?_append]
  congr 1
  funext n
  rw [extendNumeral?]
  rcases digitValue? base c with _ | value <;> rfl

/-- No number is spelled without digits. -/
theorem Spells.ne_nil (h : Spells base cs n) : cs ≠ [] := by
  cases h <;> simp

/-- Reading accepts exactly the digits that write a number, and gives the number. -/
theorem numeral?_eq_some_iff (hbase : base ≤ 16) :
    numeral? base cs = some n ↔ Spells base cs n := by
  constructor
  · induction cs using List.reverseRecOn generalizing n with
    | nil => simp [numeral?]
    | append_singleton cs c ih =>
      intro h
      rw [numeral?_of_ne_nil (by simp), extendNumeral?_concat] at h
      obtain ⟨before, hbefore, h⟩ := Option.bind_eq_some_iff.mp h
      obtain ⟨value, hvalue, rfl⟩ := Option.map_eq_some_iff.mp h
      rw [digitValue?_eq_some_iff hbase] at hvalue
      by_cases hnil : cs = []
      · subst hnil
        cases hbefore
        rw [Nat.zero_mul, Nat.zero_add]
        exact .one hvalue
      · exact .more (ih (by rwa [numeral?_of_ne_nil hnil])) hvalue
  · intro h
    rw [numeral?_of_ne_nil h.ne_nil]
    induction h with
    | one hc =>
      rw [← digitValue?_eq_some_iff hbase] at hc
      simp [extendNumeral?, hc]
    | more hcs hc ih =>
      rw [← digitValue?_eq_some_iff hbase] at hc
      rw [extendNumeral?_concat, ih, Option.bind_some, hc, Option.map_some]

/-! ### Writing -/

/-- A number of few digits is small. -/
theorem Spells.lt_pow (h : Spells base cs n) : n < base ^ cs.length := by
  induction h with
  | one h => simpa using h.1
  | @more cs c n value hcs hc ih =>
    rw [List.length_append, List.length_singleton, Nat.pow_succ]
    calc n * base + value < n * base + base := Nat.add_lt_add_left hc.1 _
      _ = (n + 1) * base := (Nat.succ_mul n base).symm
      _ ≤ base ^ cs.length * base := Nat.mul_le_mul_right base ih

private theorem isDigitOf_digitChar {value : Nat} (h : value < base) :
    IsDigitOf base value.digitChar value :=
  ⟨h, .inl rfl⟩

private theorem toUpper_toUpper_digitChar : ∀ value < 16,
    value.digitChar.toUpper.toUpper = value.digitChar.toUpper := by
  decide

private theorem IsDigitOf.toUpper (hbase : base ≤ 16) {c : Char} {value : Nat}
    (h : IsDigitOf base c value) : IsDigitOf base c.toUpper value := by
  obtain ⟨hlt, rfl | rfl⟩ := h
  · exact ⟨hlt, .inr rfl⟩
  · exact ⟨hlt, .inr (toUpper_toUpper_digitChar value (by omega))⟩

/-- A number is written by its digits in the base. -/
theorem spells_toDigits (hbase : 1 < base) (n : Nat) : Spells base (Nat.toDigits base n) n := by
  induction n using Nat.strongRecOn with
  | ind n ih =>
    rw [Nat.toDigits_eq_if hbase]
    split
    · rename_i hlt
      exact .one (isDigitOf_digitChar hlt)
    · rename_i hge
      have hquotient := ih (n / base) (Nat.div_lt_self (by omega) hbase)
      have hlast := isDigitOf_digitChar (Nat.mod_lt n (by omega : 0 < base))
      have hwhole := hquotient.more hlast
      rwa [Nat.div_add_mod'] at hwhole

/-- The case of the digits does not matter. -/
theorem Spells.map_toUpper (hbase : base ≤ 16) (h : Spells base cs n) :
    Spells base (cs.map Char.toUpper) n := by
  induction h with
  | one h => exact .one (h.toUpper hbase)
  | more hcs hc ih =>
    rw [List.map_append]
    exact ih.more (hc.toUpper hbase)

end IconMarkup.Text
