/-!
# The exact value of a floating-point number

Delays, priorities and cycle counts are binary floating-point numbers.  Rounding them to whole
numbers and writing them in decimal is done on their exact value, a dyadic rational, so that no
step depends on an approximate operation.

* `Exact` — not a number, an infinity, or a sign with `mantissa * 2 ^ exponent`.
* `Exact.ofFloat` — the value of a `Float`.
* `Exact.ceil` and `Exact.nearest` — whole numbers from above and nearest, both on magnitudes.
-/

namespace Gateware

/-- The value of a floating-point number: no number at all, an infinity, or a signed dyadic
rational `mantissa * 2 ^ exponent`.  Zero keeps its sign and has mantissa zero. -/
inductive Exact where
  | nan
  | infinite (negative : Bool)
  | finite (negative : Bool) (mantissa : Nat) (exponent : Int)
deriving Repr, DecidableEq

namespace Exact

/-- Whether a sign is the negative one. -/
def isNegative : Float.Model.UnpackedFloat.Sign → Bool
  | .negative => true
  | .positive => false

/-- The exact value of a floating-point number. -/
def ofFloat (x : Float) : Exact :=
  match x.toModel.unpack with
  | .notANumber => nan
  | .infinity s => infinite (isNegative s)
  | .zero s => finite (isNegative s) 0 0
  | .finite s m e _ => finite (isNegative s) m e

/-- The magnitude `mantissa * 2 ^ exponent` as a fraction of natural numbers; the denominator is a
power of two. -/
def fraction (mantissa : Nat) (exponent : Int) : Nat × Nat :=
  (mantissa * Nat.pow 2 exponent.toNat, Nat.pow 2 (-exponent).toNat)

/-- The least natural number that is at least `mantissa * 2 ^ exponent`. -/
def ceilMagnitude (mantissa : Nat) (exponent : Int) : Nat :=
  let (n, d) := fraction mantissa exponent
  (n + d - 1) / d

/-- The natural number nearest to `mantissa * 2 ^ exponent`; a half goes up. -/
def nearestMagnitude (mantissa : Nat) (exponent : Int) : Nat :=
  let (n, d) := fraction mantissa exponent
  (2 * n + d) / (2 * d)

end Exact

/-- Division with the quotient rounded to the nearest natural number, a half going to the even
neighbour. -/
def divNearestEven (n d : Nat) : Nat :=
  let q := n / d
  let r := n % d
  if 2 * r < d then q
  else if d < 2 * r then q + 1
  else q + q % 2

/-- A natural number with at most 53 binary digits that count, the nearest to the given one; a half
goes to the even neighbour. -/
def roundToMantissa (n : Nat) : Nat :=
  let unit := Nat.pow 2 (n.log2 - 52)
  divNearestEven n unit * unit

end Gateware
