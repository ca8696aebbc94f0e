/-!
# JSON values

Programs, manifests and reports are exchanged as JSON.  A value keeps the fields of an object in
the order in which they were written, repeated ones included, because readers reject repetitions of
the fields they know.

A text can be well-formed and still denote no value: a string with an unpaired surrogate escape, an
object with such a key, or a number beyond the range of floating point.  Such a part is
`unreadable`.  A reader that skips it need not mind; one that looks at it fails.
-/

namespace Gateware

/-- A JSON value. -/
inductive Json where
  | null
  | bool (b : Bool)
  /-- A number written without point and exponent, other than `-0`. -/
  | int (n : Int)
  /-- Any other number, `mantissa * 10 ^ exponent`. -/
  | real (mantissa : Int) (exponent : Int)
  | text (s : String)
  | array (items : List Json)
  | object (fields : List (String × Json))
  /-- Well-formed text that denotes no value. -/
  | unreadable
deriving Repr

namespace Json

mutual

/-- How deeply arrays and objects are nested, if every part of the value can be read. -/
def nesting : Json → Option Nat
  | null => some 0
  | bool _ => some 0
  | int _ => some 0
  | real _ _ => some 0
  | text _ => some 0
  | array items => (nestingItems items).map (· + 1)
  | object fields => (nestingFields fields).map (· + 1)
  | unreadable => none

/-- The deepest nesting among items. -/
def nestingItems : List Json → Option Nat
  | [] => some 0
  | j :: js => do
    let n ← nesting j
    let m ← nestingItems js
    some (max n m)

/-- The deepest nesting among the values of fields. -/
def nestingFields : List (String × Json) → Option Nat
  | [] => some 0
  | (_, j) :: fs => do
    let n ← nesting j
    let m ← nestingFields fs
    some (max n m)

end

/-- Whether all of a value can be read while opening at most `depth` containers inside each
other. -/
def readableWithin (depth : Nat) (j : Json) : Bool :=
  match j.nesting with
  | some n => n ≤ depth
  | none => false

/-- A list of texts as a value. -/
def ofTexts (texts : List String) : Json := array (texts.map text)

end Json

end Gateware
