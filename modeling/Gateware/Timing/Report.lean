import Gateware.Journal
import Gateware.Timing.Table

/-!
# Timing reports

A timing report is the text form of a timing table.  Each line is a measurement of three fields —
operator, operand type, delay in nanoseconds — or nothing; from `#` on a line is a comment.

```
# operator  type        delay
add         signed32    1.824
```

The operand type is `signed` or `unsigned` with the width right behind it.  `TimingTable.parse`
stops at the first line that is wrong and names it.
-/

namespace Gateware.TimingTable

/-- A text without a given beginning, if it has that beginning. -/
def stripBeginning (beginning cs : List Char) : Option (List Char) :=
  if beginning.isPrefixOf cs then some (cs.drop beginning.length) else none

/-- The signedness and the digits of an operand type in lower case.  The longer word is tried
first, for it ends in the shorter one. -/
def splitOperandType (cs : List Char) : Option (Bool × List Char) :=
  match stripBeginning "unsigned".toList cs with
  | some digits => some (false, digits)
  | none => (stripBeginning "signed".toList cs).map fun digits => (true, digits)

/-- The signedness and the positive width of an operand type, in any letter case. -/
def parseOperandType (cs : List Char) : Option (Bool × Nat) := do
  let (signed, digits) ← splitOperandType (cs.map Char.toLower)
  let width ← readNat maxWord digits
  if width == 0 then none else some (signed, width)

/-- The part of a line before a comment, without blanks around it. -/
def lineContent (cs : List Char) : List Char := Text.trim (cs.takeWhile (· != '#'))

/-- The measurement on a line, or nothing on a blank one; failure gives the reason. -/
def parseFields (fields : List (List Char)) : Except String Measurement :=
  match fields with
  | [operator, type, delay] =>
    match Operator.parse (String.ofList operator) with
    | .error e => .error e.message
    | .ok operator =>
      match parseOperandType type with
      | none =>
        let word := String.ofList type
        .error s!"invalid operand type `{word}` (expected signed<N> or unsigned<N>)"
      | some (signed, width) =>
        match readFloat delay with
        | none =>
          let word := String.ofList delay
          .error s!"invalid delay `{word}`"
        | some delay => .ok ⟨⟨operator, width, signed⟩, delay⟩
  | _ => .error s!"expected 3 fields, found {fields.length}"

/-- Takes a line of a report, with its number, into the table. -/
def parseLine (t : TimingTable) (number : Nat) (line : List Char) :
    Except TimingError TimingTable :=
  let content := lineContent line
  if content.isEmpty then .ok t
  else match parseFields (Text.words content) with
    | .error reason => .error (.malformed number reason)
    | .ok m =>
      if (t.delay? m.operation).isSome then .error (.duplicate number m.operation.render)
      else t.insert m.operation m.delay

/-- Takes lines into the table, the first of them with the given number. -/
def parseLines (t : TimingTable) : (number : Nat) → List (List Char) →
    Except TimingError TimingTable
  | _, [] => .ok t
  | number, line :: rest =>
    match t.parseLine number line with
    | .ok t => t.parseLines (number + 1) rest
    | .error e => .error e

/-- The table that a report describes. -/
def parse (source : String) : Except TimingError TimingTable :=
  empty.parseLines 1 (Text.lines source.toList)

end Gateware.TimingTable

namespace Gateware

/-! ## Deferred reading

The report of a device is read when it is first asked for, and the outcome is kept whether it is a
table or an error. -/

/-- A report that is read once, at the first request. -/
structure DeferredReport where
  source : String
  /-- The outcome of reading, once it has been read. -/
  outcome : Option (Except TimingError TimingTable) := none
  /-- How often the report has been read. -/
  readings : Nat := 0

namespace DeferredReport

/-- Whether the report has been read. -/
def isRead (r : DeferredReport) : Bool := r.outcome.isSome

/-- What is noted when a report has been read. -/
def describe : Except TimingError TimingTable → Remark
  | .ok t => ⟨.report, .debug, s!"parsed timing report with {t.size} entries"⟩
  | .error e => ⟨.report, .warning, s!"timing report failed to parse: {e.message}"⟩

/-- The table of a report, and the report as it is afterwards. -/
def get (r : DeferredReport) : Except TimingError TimingTable × DeferredReport :=
  match r.outcome with
  | some outcome => (outcome, r)
  | none =>
    let outcome := TimingTable.parse r.source
    (outcome, { r with outcome := some outcome, readings := r.readings + 1 })

end DeferredReport

/-- The table of the report of a device, with the consultation noted. -/
def consultReport (device source : String) : Traced TimingError TimingTable :=
  let outcome := TimingTable.parse source
  ⟨[.consulted device (DeferredReport.describe outcome)], outcome⟩

end Gateware
