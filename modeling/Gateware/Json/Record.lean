import Gateware.Json.Value
import Gateware.Number.Reading

/-!
# Reading records

A record may be written in two ways: as an object, where unknown fields are skipped and a known one
may occur only once, or as the array of its fields in their order, where fields at the end may be
missing.  `Json.record` turns both into the same list, one place for each known field.

Readers carry the number of containers that may still be opened inside each other.  A skipped value
is not opened, so it does not count, and it may even be unreadable.
-/

namespace Gateware.Json

/-- How many arrays and objects may be nested in a text. -/
def nestingLimit : Nat := 127

/-- The values of the known fields of a record, missing ones as `none`, and how many containers may
be opened inside it. -/
def record (names : List String) : (depth : Nat) → Json → Option (Nat × List (Option Json))
  | 0, _ => none
  | depth + 1, object fields =>
    if names.all fun name => (fields.filter (·.1 == name)).length ≤ 1 then
      some (depth, names.map fun name => fields.lookup name)
    else none
  | depth + 1, array items =>
    if items.length ≤ names.length then
      some (depth, (List.range names.length).map fun i => items[i]?)
    else none
  | _ + 1, _ => none

/-- The items of an array, each read with one container less to open. -/
def items {α : Type} (read : Nat → Json → Option α) : (depth : Nat) → Json → Option (List α)
  | depth + 1, array js => js.mapM (read depth)
  | _, _ => none

/-- A text. -/
def asText : Json → Option String
  | text s => some s
  | _ => none

/-- A truth value. -/
def asBool : Json → Option Bool
  | bool b => some b
  | _ => none

/-- A natural number of at most `bound`. -/
def asNat (bound : Nat) : Json → Option Nat
  | int n => if 0 ≤ n && n ≤ (bound : Int) then some n.toNat else none
  | _ => none

/-- A whole number of 64 bits with a sign. -/
def asLong : Json → Option Int
  | int n => if Int64.minValue.toInt ≤ n && n ≤ Int64.maxValue.toInt then some n else none
  | _ => none

/-- A field that has to be there. -/
def required {α : Type} (read : Json → Option α) (field : Option Json) : Option α :=
  field.bind read

/-- A field that may be missing. -/
def optional {α : Type} (default : α) (read : Json → Option α) (field : Option Json) : Option α :=
  match field with
  | some j => read j
  | none => some default

end Gateware.Json
