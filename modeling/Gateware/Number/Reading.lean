import Gateware.Number.Digits
import Gateware.Number.Exact

/-!
# Reading numbers

The texts in which numbers are given: natural numbers with an optional plus sign, and decimals with
an optional sign, fraction and exponent, or one of the words for infinity and not-a-number.  A
decimal is read as the floating-point number nearest to it; one that is too large is infinite, and
one that is too small is zero.

* `readDigits` — a number written in digits only.
* `readNat` — a natural number below a bound.
* `readFloat` — a floating-point number.
-/

namespace Gateware

/-- A non-empty text of decimal digits as a number. -/
def readDigits (cs : List Char) : Option Nat :=
  if !cs.isEmpty && cs.all Char.isDigit then some (digitsValue cs) else none

/-- A natural number of at most `bound`, written in digits after an optional plus sign. -/
def readNat (bound : Nat) (cs : List Char) : Option Nat := do
  let n ← readDigits (match cs with
    | '+' :: rest => rest
    | _ => cs)
  if n ≤ bound then some n else none

/-- The largest number of 32 bits. -/
def maxWord : Nat := 0xFFFFFFFF

/-- The largest number of 64 bits. -/
def maxLong : Nat := 0xFFFFFFFFFFFFFFFF

/-! ## Decimals -/

/-- A sign at the start of a text, and the rest. -/
def splitSign : List Char → Bool × List Char
  | '-' :: rest => (true, rest)
  | '+' :: rest => (false, rest)
  | cs => (false, cs)

/-- An unsigned decimal taken apart: all digits of whole part and fraction as one number, and the
power of ten it is multiplied by. -/
structure Scientific where
  digits : Nat
  exponent : Int
deriving Repr, DecidableEq

/-- The exponent of a decimal: nothing, or `e` with an optional sign and at least one digit. -/
def readExponent : List Char → Option Int
  | [] => some 0
  | c :: rest =>
    if c == 'e' || c == 'E' then
      let (negative, ds) := splitSign rest
      (readDigits ds).map fun n => if negative then -(n : Int) else (n : Int)
    else none

/-- Digits with an optional point and an optional exponent.  One of whole part and fraction may be
empty, but not both. -/
def readScientific (cs : List Char) : Option Scientific :=
  let whole := cs.takeWhile Char.isDigit
  let (fraction, rest) := match cs.dropWhile Char.isDigit with
    | '.' :: rest => (rest.takeWhile Char.isDigit, rest.dropWhile Char.isDigit)
    | rest => ([], rest)
  if whole.isEmpty && fraction.isEmpty then none
  else (readExponent rest).map fun e =>
    ⟨digitsValue (whole ++ fraction), e - (fraction.length : Int)⟩

/-- Positive infinity. -/
def infinity : Float := 1.0 / 0.0

/-- The floating-point number nearest to a decimal.  A decimal of at least `10 ^ 400` is infinite
and one below `10 ^ -400` is zero, however large the exponent is. -/
def Scientific.toFloat (x : Scientific) : Float :=
  if x.digits == 0 then 0.0
  else if 400 < x.exponent then infinity
  else if 0 ≤ x.exponent then Float.ofScientific x.digits false x.exponent.toNat
  else if x.exponent + (x.digits.log2 / 3 + 1 : Nat) < -400 then 0.0
  else Float.ofScientific x.digits true (-x.exponent).toNat

/-- The value that is no number. -/
def notANumber : Float := 0.0 / 0.0

/-- An unsigned decimal, or `inf`, `infinity` or `nan` in any letter case. -/
def readMagnitude (cs : List Char) : Option Float :=
  let word := String.ofList (cs.map Char.toLower)
  if word == "inf" || word == "infinity" then some infinity
  else if word == "nan" then some notANumber
  else (readScientific cs).map Scientific.toFloat

/-- A floating-point number with an optional sign. -/
def readFloat (cs : List Char) : Option Float :=
  let (negative, rest) := splitSign cs
  (readMagnitude rest).map fun x => if negative then -x else x

end Gateware
