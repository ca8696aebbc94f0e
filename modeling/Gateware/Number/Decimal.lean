import Gateware.Number.Digits
import Gateware.Number.Shortest

/-!
# Decimal texts of floating-point numbers

Two formats occur in messages and reports.  `plainText` writes the shortest decimal that reads
back, always in positional notation: no exponent, however long, and no fraction for a whole number.
`fixedText` writes a given number of decimals of the exact value, a half going to the even digit.
-/

namespace Gateware

/-- How the decisions of a decimal format are taken: the texts of the values that are no decimals,
and the mark between whole part and fraction. -/
structure DecimalFormat where
  notANumber : String
  infinity : String
  minus : String
  point : Char

/-- Numbers in messages: `NaN`, `inf`, a minus sign also before a zero, and a point. -/
def DecimalFormat.message : DecimalFormat := ⟨"NaN", "inf", "-", '.'⟩

namespace Decimal

/-- Positional notation: zeros follow the digits if `places` is negative, and a fraction without
trailing zeros follows the whole part if it is positive. -/
def positional (format : DecimalFormat) (x : Decimal) : List Char :=
  if x.places ≤ 0 then
    if x.digits == 0 then ['0']
    else Nat.toDigits 10 x.digits ++ List.replicate (-x.places).toNat '0'
  else
    let p := x.places.toNat
    let whole := Nat.toDigits 10 (x.digits / Nat.pow 10 p)
    let rest := (paddedDigits 10 p (x.digits % Nat.pow 10 p)).reverse.dropWhile (· == '0')
    if rest.isEmpty then whole else whole ++ format.point :: rest.reverse

end Decimal

/-- A text with the sign in front. -/
def DecimalFormat.signed (format : DecimalFormat) (negative : Bool) (text : String) : String :=
  if negative then format.minus ++ text else text

/-- The shortest decimal that reads back as `x`, in positional notation. -/
def plainText (x : Float) : String :=
  let format := DecimalFormat.message
  match Exact.ofFloat x with
  | .nan => format.notANumber
  | .infinite negative => format.signed negative format.infinity
  | .finite negative mantissa exponent =>
    let decimal : Decimal :=
      if mantissa == 0 then ⟨0, 0⟩ else (Span.ofFinite mantissa exponent).shortest
    format.signed negative (String.ofList (decimal.positional format))

/-- The exact value of `x` with `places` decimals, a half going to the even digit. -/
def fixedText (places : Nat) (x : Float) : String :=
  let format := DecimalFormat.message
  match Exact.ofFloat x with
  | .nan => format.notANumber
  | .infinite negative => format.signed negative format.infinity
  | .finite negative mantissa exponent =>
    let (n, d) := Exact.fraction mantissa exponent
    let scaled := divNearestEven (n * Nat.pow 10 places) d
    let whole := Nat.toDigits 10 (scaled / Nat.pow 10 places)
    let rest := paddedDigits 10 places (scaled % Nat.pow 10 places)
    format.signed negative (String.ofList (whole ++ format.point :: rest))

end Gateware
