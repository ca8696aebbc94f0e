import Gateware.Journal
import Gateware.Manifest
import Gateware.Timing.Table

/-!
# The cost of an operation

The delay of an operation is the measured one if the table has it.  Otherwise it is scaled from the
measurement of the same operator that is nearest in width: measurements of the same signedness come
first, and of two equally near widths the wider one counts.  The cost is the delay divided by the
clock period, a possibly fractional number of clock cycles.

* `TimingTable.resolve` — the delay of an operation, and where it comes from.
* `price` — its cost on a device.
* `Cycles.whole` — how many whole cycles cover a cost.
-/

namespace Gateware

/-! ## Clock cycles -/

/-- A possibly fractional number of clock cycles. -/
structure Cycles where
  value : Float

namespace Cycles

/-- No time at all. -/
def zero : Cycles := ⟨0.0⟩

/-- One cost after another. -/
def add (a b : Cycles) : Cycles := ⟨a.value + b.value⟩

instance : Add Cycles := ⟨add⟩

/-- The sum of costs, added up from the first. -/
def sum (costs : List Cycles) : Cycles := costs.foldl add zero

/-- The longer of two costs; the first unless the second is longer. -/
def later (a b : Cycles) : Cycles := if a.value < b.value then b else a

/-- The whole number of cycles that covers a cost: at least one, because a result is taken over at
a clock edge, and at most the largest number of 32 bits.  A cost that is no number is covered by
none. -/
def whole (c : Cycles) : Nat :=
  match Exact.ofFloat c.value with
  | .nan => 0
  | .infinite negative => if negative then 1 else maxWord
  | .finite negative mantissa exponent =>
    if negative then 1
    else min (max 1 (Exact.ceilMagnitude mantissa exponent)) maxWord

/-- The text of a cost. -/
def render (c : Cycles) : String := fixedText 3 c.value ++ " cycles"

end Cycles

/-! ## Delays -/

/-- Where a delay comes from. -/
inductive DelaySource where
  /-- Exactly this operation was measured. -/
  | exact
  /-- It was scaled from a measurement at another width or signedness. -/
  | scaled (width : Nat) (signed : Bool)
deriving Repr, DecidableEq

/-- The delay of an operation in nanoseconds. -/
structure Estimate where
  delay : Float
  source : DelaySource

/-- How far apart two widths are. -/
def widthDistance (a b : Nat) : Nat := (a - b) + (b - a)

/-- Whether a measurement at width `a` serves an operation of the given width better than one at
width `b`. -/
def closerWidth (width a b : Nat) : Bool :=
  let x := widthDistance a width
  let y := widthDistance b width
  x < y || (x == y && b < a)

namespace TimingTable

/-- The measurement in a list that serves a width best, the first of several that serve it as
well. -/
def nearest (width : Nat) : List Measurement → Option Measurement
  | [] => none
  | m :: ms =>
    match nearest width ms with
    | none => some m
    | some n => if closerWidth width n.operation.width m.operation.width then some n else some m

/-- The measurement that an operation is scaled from: one of its own signedness if there is one. -/
def reference (t : TimingTable) (op : Operation) : Option Measurement :=
  let ms := t.measurements op.operator
  (nearest op.width (ms.filter (·.operation.signed == op.signed))).or (nearest op.width ms)

/-- The delay of an operation, unless its width is zero or its operator was never measured. -/
def resolve (t : TimingTable) (op : Operation) : Option Estimate :=
  if op.width == 0 then none
  else match t.delay? op with
    | some delay => some ⟨delay, .exact⟩
    | none => (t.reference op).map fun m =>
      ⟨op.operator.rule.scale m.delay m.operation.width op.width,
        .scaled m.operation.width m.operation.signed⟩

end TimingTable

/-- What is noted about an estimate: nothing if it was measured. -/
def scalingNote (device : String) (op : Operation) : DelaySource → List Note
  | .exact => []
  | .scaled width signed =>
    [.line ⟨.cost, .debug,
      s!"{device}: `{op.render}` scaled from {signWord signed} width {width}"⟩]

/-- The cost of an operation on a device with the given measurements. -/
def price (manifest : Manifest) (table : TimingTable) (op : Operation) :
    Traced TimingError Cycles :=
  if op.width == 0 then .fail (.invalidWidth op.render)
  else match table.resolve op with
    | none => .fail (.missingOperator manifest.name op.operator.mnemonic)
    | some estimate =>
      ⟨scalingNote manifest.name op estimate.source,
        .ok ⟨estimate.delay / manifest.periodNs⟩⟩

end Gateware
