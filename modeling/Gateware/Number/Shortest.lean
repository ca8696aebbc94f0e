import Gateware.Number.Exact

/-!
# The shortest decimal that reads back

A positive floating-point number `mantissa * 2 ^ exponent` stands for an interval of reals: those
nearer to it than to its neighbours.  The ends of the interval belong to it exactly if the mantissa
is even, because a tie in reading goes to the even mantissa.  `shortest` finds the decimal with the
fewest digits inside the interval, and of those the one nearest to the number itself; if two are
equally near it takes the larger.

The search runs over decimal grids.  On the grid with `p` places the only candidates are the two
grid points next to the number, `⌊x * 10 ^ p⌋` and its successor: if any grid point lies in the
interval, one of these does.  All comparisons are between natural numbers.
-/

namespace Gateware

/-- An interval of rationals around `mid / den`, from `(mid - below) / den` to
`(mid + above) / den`; `closed` says whether the ends belong to it. -/
structure Span where
  mid : Nat
  below : Nat
  above : Nat
  den : Nat
  closed : Bool
deriving Repr

namespace Span

/-- The numbers that are read as `mantissa * 2 ^ exponent`.  Below the least mantissa of a binade
(`2 ^ 52`, unless the exponent is the least one) the neighbour is only half as far away. -/
def ofFinite (mantissa : Nat) (exponent : Int) : Span :=
  let unit := Nat.pow 2 exponent.toNat
  { mid := 4 * mantissa * unit
    below := if mantissa == 0x10000000000000 && exponent != -1074 then unit else 2 * unit
    above := 2 * unit
    den := 4 * Nat.pow 2 (-exponent).toNat
    closed := mantissa % 2 == 0 }

/-- Whether `n / d` lies in the interval. -/
def contains (s : Span) (n d : Nat) : Bool :=
  let x := n * s.den
  let low := (s.mid - s.below) * d
  let high := (s.mid + s.above) * d
  if s.closed then low ≤ x && x ≤ high else low < x && x < high

end Span

/-- A decimal `digits / 10 ^ places`; with negative `places` the digits are followed by zeros. -/
structure Decimal where
  digits : Nat
  places : Int
deriving Repr, DecidableEq

namespace Decimal

/-- The decimal as a fraction of natural numbers. -/
def fraction (x : Decimal) : Nat × Nat :=
  (x.digits * Nat.pow 10 (-x.places).toNat, Nat.pow 10 x.places.toNat)

end Decimal

namespace Span

/-- The grid point with `places` places below or at the middle of the interval. -/
def floorAt (s : Span) (places : Int) : Nat :=
  s.mid * Nat.pow 10 places.toNat / (s.den * Nat.pow 10 (-places).toNat)

/-- The point of the grid with `places` places that stands for the interval, if the grid has one
in it: the nearer of the two points next to the middle, the upper one if both are as near. -/
def onGrid (s : Span) (places : Int) : Option Decimal :=
  let low : Decimal := ⟨s.floorAt places, places⟩
  let high : Decimal := ⟨low.digits + 1, places⟩
  let (lowN, d) := low.fraction
  let (highN, _) := high.fraction
  match s.contains lowN d, s.contains highN d with
  | true, true =>
    if s.mid * d * 2 < (lowN + highN) * s.den then some low else some high
  | true, false => some low
  | false, true => some high
  | false, false => none

/-- The first grid with a point in the interval, among `count` grids from `places` on. -/
def search (s : Span) (places : Int) : (count : Nat) → Option Decimal
  | 0 => none
  | count + 1 =>
    match s.onGrid places with
    | some x => some x
    | none => s.search (places + 1) count

/-- How many places are needed until a number below one shows a digit: the least `k` from `k₀` on,
within `fuel` steps, with `num * 10 ^ k ≥ den`. -/
def leadingPlaces (num den : Nat) (k₀ : Nat) : (fuel : Nat) → Nat
  | 0 => k₀
  | fuel + 1 => if den ≤ num * Nat.pow 10 k₀ then k₀ else leadingPlaces num den (k₀ + 1) fuel

/-- The number of places of the coarsest grid on which the middle has a digit. -/
def firstPlaces (s : Span) : Int :=
  if s.den ≤ s.mid then
    1 - ((Nat.toDigits 10 (s.mid / s.den)).length : Int)
  else
    (leadingPlaces s.mid s.den 0 400 : Int)

/-- The decimal with the fewest digits in the interval.  Seventeen digits always suffice for a
floating-point number, so the search has at most eighteen grids to visit. -/
def shortest (s : Span) : Decimal :=
  (s.search s.firstPlaces 18).getD ⟨0, 0⟩

end Span

end Gateware
