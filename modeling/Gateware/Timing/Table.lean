import Gateware.Number.Decimal
import Gateware.Operation

/-!
# Timing tables

A timing table holds the measured delay of operations on one device, in nanoseconds.  It is a
finite map kept as a list in ascending order of operations, so the measurements of one operator come
out by width, unsigned before signed.

Only positive widths and finite delays that are not negative enter a table (`TimingTable.record`);
a later measurement of the same operation replaces the earlier one.
-/

namespace Gateware

/-- What can be wrong with measurements and with pricing from them. -/
inductive TimingError where
  /-- A line of a report is not a measurement. -/
  | malformed (line : Nat) (reason : String)
  /-- A report measures an operation twice. -/
  | duplicate (line : Nat) (operation : String)
  /-- A delay that is negative or not finite. -/
  | invalidDelay (operation : String) (delay : Float)
  /-- An operand of no bits. -/
  | invalidWidth (operation : String)
  /-- An operator was never measured on the device. -/
  | missingOperator (device operator : String)
deriving DecidableEq

/-- The message of a timing error. -/
def TimingError.message : TimingError → String
  | malformed line reason => s!"timing report line {line}: {reason}"
  | duplicate line operation => s!"timing report line {line}: duplicate entry for `{operation}`"
  | invalidDelay operation delay => s!"invalid delay {plainText delay} ns for `{operation}`"
  | invalidWidth operation =>
    s!"cannot price `{operation}`: operand width must be at least one bit"
  | missingOperator device operator =>
    s!"timing report for device '{device}' has no entry for operator `{operator}`; "
      ++ "the report is incomplete"

/-- The delay of one operation in nanoseconds. -/
structure Measurement where
  operation : Operation
  delay : Float

/-- Measured delays in ascending order of operations. -/
structure TimingTable where
  entries : List Measurement

namespace TimingTable

/-- No measurements. -/
def empty : TimingTable := ⟨[]⟩

/-- The number of measured operations. -/
def size (t : TimingTable) : Nat := t.entries.length

/-- The measured delay of exactly this operation. -/
def delay? (t : TimingTable) (op : Operation) : Option Float :=
  (t.entries.find? (·.operation == op)).map (·.delay)

/-- Puts a measurement at its place in an ascending list, replacing one of the same operation. -/
def place (m : Measurement) : List Measurement → List Measurement
  | [] => [m]
  | x :: xs =>
    if m.operation.before x.operation then m :: x :: xs
    else if m.operation == x.operation then m :: xs
    else x :: place m xs

/-- Whether a delay can be measured: finite and not negative. -/
def validDelay (delay : Float) : Bool := delay.isFinite && !(delay < 0.0)

/-- Records a measurement in the table, in place of an old one of the same operation.  The table is
there afterwards whether the measurement was accepted or not. -/
def record (t : TimingTable) (op : Operation) (delay : Float) :
    TimingTable × Except TimingError Unit :=
  if op.width == 0 then (t, .error (.invalidWidth op.render))
  else if !validDelay delay then (t, .error (.invalidDelay op.render delay))
  else (⟨place ⟨op, delay⟩ t.entries⟩, .ok ())

/-- The table with one more measurement, if it is accepted. -/
def insert (t : TimingTable) (op : Operation) (delay : Float) : Except TimingError TimingTable :=
  let done := t.record op delay
  done.2.map fun _ => done.1

/-- The measurements of one operator, by width, unsigned before signed. -/
def measurements (t : TimingTable) (operator : Operator) : List Measurement :=
  t.entries.filter (·.operation.operator == operator)

end TimingTable

end Gateware
