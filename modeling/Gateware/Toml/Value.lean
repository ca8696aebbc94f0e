import Gateware.Number.Decimal
import Gateware.Text.Quoted

/-!
# TOML values

The values of a TOML document: texts, whole numbers of 64 bits, floating-point numbers, truth
values, arrays and tables.  A table has each key once.  As read from a document its entries are in
the order in which they were written; `Toml.settle` puts them in ascending order of their keys, in
which they are kept.

`Toml.describe` lists a value with the names of its kinds, for people who look at stored settings.
-/

namespace Gateware

/-- A TOML value. -/
inductive Toml where
  | text (s : String)
  | int (n : Int64)
  | float (x : Float)
  | bool (b : Bool)
  | array (items : List Toml)
  | table (entries : List (String × Toml))

namespace Toml

/-! ## Entries in order -/

/-- An ascending list of entries with one more, in front of an equal key. -/
def insertEntry {α : Type} (key : String) (value : α) : List (String × α) → List (String × α)
  | [] => [(key, value)]
  | (k, v) :: entries =>
    if key < k then (key, value) :: (k, v) :: entries
    else if key == k then (key, value) :: entries
    else (k, v) :: insertEntry key value entries

/-- Entries with distinct keys in ascending order. -/
def sortEntries (entries : List (String × Toml)) : List (String × Toml) :=
  entries.foldl (fun sorted (k, v) => insertEntry k v sorted) []

/-- The key with which a table starts that stands for a date. -/
def dateKey : String := "$__toml_private_datetime"

/-- Whether a table stands for a date. -/
def isDate : List (String × Toml) → Bool
  | (key, _) :: _ => key == dateKey
  | [] => false

mutual

/-- The value with all tables in ascending order of their keys, unless it has a date in it, for
which there is no value. -/
def settle : Toml → Option Toml
  | text s => some (text s)
  | int n => some (int n)
  | float x => some (float x)
  | bool b => some (bool b)
  | array items => (settleItems items).map array
  | table entries =>
    if isDate entries then none
    else (settleEntries entries).map fun entries => table (sortEntries entries)

/-- Values, each settled. -/
def settleItems : List Toml → Option (List Toml)
  | [] => some []
  | v :: vs => do
    let v ← settle v
    let vs ← settleItems vs
    some (v :: vs)

/-- Entries with their values settled. -/
def settleEntries : List (String × Toml) → Option (List (String × Toml))
  | [] => some []
  | (k, v) :: entries => do
    let v ← settle v
    let entries ← settleEntries entries
    some ((k, v) :: entries)

end

/-! ## Listings -/

/-- A floating-point number in a listing: always with a point or an exponent, the latter outside
`1e-4` to `1e16`. -/
def floatText (x : Float) : String :=
  match Exact.ofFloat x with
  | .finite negative mantissa exponent =>
    if mantissa == 0 then DecimalFormat.message.signed negative "0.0"
    else
      let decimal := (Span.ofFinite mantissa exponent).shortest
      let digits := Nat.toDigits 10 decimal.digits
      let magnitude : Int := (digits.length : Int) - decimal.places
      if -4 < magnitude && magnitude ≤ 16 then
        let plain := plainText x
        if plain.contains '.' then plain else plain ++ ".0"
      else
        let digits := (digits.reverse.dropWhile (· == '0')).reverse
        let mantissaText := match digits with
          | [] => "0"
          | [d] => d.toString
          | d :: ds => String.ofList (d :: '.' :: ds)
        DecimalFormat.message.signed negative s!"{mantissaText}e{magnitude - 1}"
  | _ => plainText x

mutual

/-- A value with the name of its kind. -/
def describe : Toml → String
  | text s => "String(" ++ Text.quoted s ++ ")"
  | int n => "Integer(" ++ toString n.toInt ++ ")"
  | float x => "Float(" ++ floatText x ++ ")"
  | bool b => if b then "Boolean(true)" else "Boolean(false)"
  | array items => "Array([" ++ describeItems items ++ "])"
  | table entries => "Table(\x7b" ++ describeEntries entries ++ "\x7d)"

/-- Values with commas between them. -/
def describeItems : List Toml → String
  | [] => ""
  | [v] => describe v
  | v :: vs => describe v ++ ", " ++ describeItems vs

/-- Entries with commas between them. -/
def describeEntries : List (String × Toml) → String
  | [] => ""
  | [(k, v)] => Text.quoted k ++ ": " ++ describe v
  | (k, v) :: es => Text.quoted k ++ ": " ++ describe v ++ ", " ++ describeEntries es

end

end Toml

end Gateware
