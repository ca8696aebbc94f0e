import Gateware.Number.Decimal
import Gateware.Number.Reading
import Gateware.Text.Blank
import Gateware.Json.Value

/-!
# Clock frequencies

A clock frequency is a whole number of hertz below `2 ^ 64`.  It is written with the largest unit
that keeps it readable (`300MHz`, `1.5GHz`) and read from a decimal with an optional unit in any
letter case.

Reading computes in floating point: the number is read, multiplied by its unit and rounded to the
nearest whole number, a half going away from zero.  The result is refused if it is negative, not
finite, or larger than `2 ^ 64`, and `2 ^ 64` itself counts as the largest frequency.
-/

namespace Gateware

/-- A clock frequency in hertz. -/
structure Frequency where
  hz : Nat
deriving Repr, DecidableEq

/-- Why a text is not a frequency: the text itself, without the blanks around it. -/
inductive FrequencyError where
  | malformed (text : String)
deriving Repr, DecidableEq

/-- The message of a frequency error. -/
def FrequencyError.message : FrequencyError → String
  | malformed text => s!"invalid frequency: '{text}'"

namespace Frequency

/-- A frequency given in megahertz. -/
def ofMhz (mhz : Nat) : Frequency := ⟨mhz * 1000000⟩

/-- The frequency in megahertz. -/
def mhz (f : Frequency) : Float := Float.ofNat f.hz / 1000000.0

/-- The length of a clock cycle in nanoseconds; infinite for a clock that stands still. -/
def periodNs (f : Frequency) : Float := 1000000000.0 / Float.ofNat f.hz

/-- The text of a frequency. -/
def render (f : Frequency) : String :=
  let hz := f.hz
  if 1000000000 ≤ hz && hz % 1000000 == 0 then
    plainText (Float.ofNat hz / 1000000000.0) ++ "GHz"
  else if 1000000 ≤ hz && hz % 1000 == 0 then
    plainText (Float.ofNat hz / 1000000.0) ++ "MHz"
  else if 1000 ≤ hz then
    plainText (Float.ofNat hz / 1000.0) ++ "kHz"
  else toString hz ++ "Hz"

/-- A frequency as JSON: its number of hertz. -/
def toJson (f : Frequency) : Json := .int f.hz

/-! ## Reading -/

/-- The units and how many hertz they stand for, longer names first. -/
def units : List (List Char × Float) :=
  [("ghz".toList, 1000000000.0), ("mhz".toList, 1000000.0), ("khz".toList, 1000.0),
   ("hz".toList, 1.0)]

/-- A text without a given ending, if it has that ending. -/
def stripEnding (ending cs : List Char) : Option (List Char) :=
  if ending.isSuffixOf cs then some (cs.take (cs.length - ending.length)) else none

/-- The number and the factor of a text in lower case. -/
def splitUnit (cs : List Char) : List Char × Float :=
  (units.findSome? fun (name, factor) =>
    (stripEnding name cs).map fun number => (Text.trim number, factor)).getD (cs, 1.0)

/-- The frequency nearest to a number of hertz. -/
def ofFloat (x : Float) : Option Frequency :=
  match Exact.ofFloat x with
  | .finite negative mantissa exponent =>
    let n := Exact.nearestMagnitude mantissa exponent
    if (negative && n != 0) || maxLong + 1 < n then none else some ⟨min n maxLong⟩
  | _ => none

/-- The frequency that a text denotes. -/
def parse (source : String) : Except FrequencyError Frequency :=
  let cs := Text.trim source.toList
  let (number, factor) := splitUnit (cs.map Char.toLower)
  match (readFloat number).bind fun x => ofFloat (x * factor) with
  | some f => .ok f
  | none => .error (.malformed (String.ofList cs))

end Frequency

end Gateware
