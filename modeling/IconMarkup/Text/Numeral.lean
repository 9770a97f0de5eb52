/-!
# Numerals

Reading whole numbers written in ASCII digits of a given base.
-/

namespace IconMarkup.Text

/-- The value of a digit in the given base (at most 36), letters in either case. -/
def digitValue? (base : Nat) (c : Char) : Option Nat :=
  let value :=
    if c.isDigit then c.toNat - '0'.toNat
    else if 'a' ≤ c && c ≤ 'z' then c.toNat - 'a'.toNat + 10
    else if 'A' ≤ c && c ≤ 'Z' then c.toNat - 'A'.toNat + 10
    else base
  if value < base then some value else none

/-- Extends a number by further digits. -/
def extendNumeral? (base : Nat) : Nat → List Char → Option Nat
  | acc, [] => some acc
  | acc, c :: cs => do extendNumeral? base (acc * base + (← digitValue? base c)) cs

/-- The number written by one or more digits. -/
def numeral? (base : Nat) : List Char → Option Nat
  | [] => none
  | cs => extendNumeral? base 0 cs

/-- The number written by one or more digits, with an optional plus sign before them. -/
def signedNumeral? (base : Nat) : List Char → Option Nat
  | '+' :: cs => numeral? base cs
  | cs => numeral? base cs

end IconMarkup.Text
