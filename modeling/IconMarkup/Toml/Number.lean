import IconMarkup.Text.Numeral
import IconMarkup.Toml.Value

/-!
# Numbers in TOML

A whole number is decimal with an optional sign, or hexadecimal, octal or binary after its prefix;
it has to fit into 64 bits with a sign. A number with a fraction or an exponent has to be smaller
than what rounds to infinity in double precision. Underscores may stand between digits.
-/

namespace IconMarkup.Toml

/-- The digits of a numeral without its underscores, each of which stands between two digits. -/
def digits? (isDigit : Char → Bool) : List Char → Option (List Char)
  | [] => none
  | [c] => if isDigit c then some [c] else none
  | c :: '_' :: cs => if isDigit c then (digits? isDigit cs).map (c :: ·) else none
  | c :: cs => if isDigit c then (digits? isDigit cs).map (c :: ·) else none

/-- Takes the sign off a numeral: whether it is a minus sign, and the rest. -/
def splitSign : List Char → Bool × List Char
  | '-' :: cs => (true, cs)
  | '+' :: cs => (false, cs)
  | cs => (false, cs)

/-- The digits of a decimal numeral that does not begin with a superfluous zero. -/
def decimal? (cs : List Char) : Option (List Char) :=
  match digits? Char.isDigit cs with
  | some ('0' :: _ :: _) => none
  | digits => digits

/-- The least number that does not fit into 64 bits with a sign. -/
def integerBound : Nat := Nat.pow 2 63

/-- The number that digits of a base stand for, if it is not too large. -/
def unsigned? (base : Nat) (cs : List Char) : Option Int := do
  let digits ← digits? (fun c => (Text.digitValue? base c).isSome) cs
  let value ← Text.numeral? base digits
  if value < integerBound then some value else none

/-- Reads a whole number. -/
def integer? : List Char → Option Int
  | '0' :: 'x' :: cs => unsigned? 16 cs
  | '0' :: 'o' :: cs => unsigned? 8 cs
  | '0' :: 'b' :: cs => unsigned? 2 cs
  | cs => do
    let (negative, cs) := splitSign cs
    let value ← Text.numeral? 10 (← decimal? cs)
    if value < integerBound || (negative && value = integerBound) then
      some (if negative then -(value : Int) else value)
    else none

/-- Whether `mantissa * 10 ^ exponent` rounds to infinity in double precision: the least such
number lies half a unit in the last place above the largest finite one. -/
def roundsToInfinity (mantissa : Nat) (exponent : Int) : Bool :=
  let least := (Nat.pow 2 54 - 1) * Nat.pow 2 970
  let magnitude := (Nat.toDigits 10 mantissa).length + exponent
  if mantissa = 0 || magnitude < 309 then false
  else if 310 < magnitude then true
  else if 0 ≤ exponent then least ≤ mantissa * Nat.pow 10 exponent.toNat
  else least * Nat.pow 10 (-exponent).toNat ≤ mantissa

/-- Cuts a numeral at the first character of a kind: the part before it, and the part after it if
there is one. -/
def cutAt (isMark : Char → Bool) (cs : List Char) : List Char × Option (List Char) :=
  match cs.dropWhile (fun c => !isMark c) with
  | [] => (cs, none)
  | _ :: after => (cs.takeWhile (fun c => !isMark c), some after)

/-- Whether a text is a number with a fraction or an exponent, of a size that is not too large. -/
def isFloat (cs : List Char) : Bool :=
  let (negative, body) := splitSign cs
  if body == ['i', 'n', 'f'] || body == ['n', 'a', 'n'] then true
  else
    let (mantissa, exponent) := cutAt (fun c => c == 'e' || c == 'E') body
    let (whole, fraction) := cutAt (· == '.') mantissa
    if fraction.isNone && exponent.isNone then false
    else
      let read : Option (Nat × Int) := do
        let whole ← decimal? whole
        let fraction ← match fraction with
          | some cs => digits? Char.isDigit cs
          | none => some []
        let power ← match exponent with
          | some cs => do
            let (negative, cs) := splitSign cs
            let power ← Text.numeral? 10 (← digits? Char.isDigit cs)
            some (if negative then -(power : Int) else power)
          | none => some 0
        let mantissa ← Text.numeral? 10 (whole ++ fraction)
        some (mantissa, power - fraction.length)
      match read with
      | some (mantissa, power) => negative || !roundsToInfinity mantissa power
      | none => false

end IconMarkup.Toml
