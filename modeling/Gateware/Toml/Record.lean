import Gateware.Number.Reading
import Gateware.Toml.Value

/-!
# Records in TOML

A record is written as a table or, shorter, as an array of its fields in order.  In a table a field
may have several names, of which at most one may be used, and entries with other names mean nothing.
In an array the last fields may be left out.
-/

namespace Gateware.Toml

/-- The entry of a table under one of several names.  Two of them at once are refused. -/
def entryNamed (names : List String) (entries : List (String × Toml)) : Option (Option Toml) :=
  match entries.filter fun (key, _) => names.contains key with
  | [] => some none
  | [(_, value)] => some (some value)
  | _ => none

/-- The fields of a record, in the order of their names.  `surplus` says whether an array may go on
after the last field. -/
def record (surplus : Bool) (fields : List (List String)) : Toml → Option (List (Option Toml))
  | table entries => fields.mapM fun names => entryNamed names entries
  | array items =>
    if !surplus && fields.length < items.length then none
    else some ((List.range fields.length).map fun i => items[i]?)
  | _ => none

/-- A field that may be left out. -/
def optional {α : Type} (convert : Toml → Option α) : Option Toml → Option (Option α)
  | none => some none
  | some value => (convert value).map some

/-- A field with a value of its own when it is left out. -/
def orElse {α : Type} (fallback : α) (convert : Toml → Option α) (field : Option Toml) :
    Option α :=
  (optional convert field).map (·.getD fallback)

/-- The text of a value. -/
def asText : Toml → Option String
  | text s => some s
  | _ => none

/-- The truth value of a value. -/
def asBool : Toml → Option Bool
  | bool b => some b
  | _ => none

/-- The whole number of a value. -/
def asInt : Toml → Option Int64
  | int n => some n
  | _ => none

/-- The whole number of a value, if 32 bits without a sign can hold it. -/
def asWord : Toml → Option UInt32
  | int n => if 0 ≤ n.toInt && n.toInt ≤ (maxWord : Int) then some (UInt32.ofNat n.toInt.toNat) else none
  | _ => none

/-- The items of an array, each converted. -/
def asList {α : Type} (convert : Toml → Option α) : Toml → Option (List α)
  | array items => items.mapM convert
  | _ => none

end Gateware.Toml
