import Gateware.Json.Printer
import Gateware.Json.Reader
import Gateware.Operator

/-!
# Operations

An operation is what gets a price: an operator at an operand width, signed or unsigned.  Operations
are ordered by operator, then width, then unsigned before signed.
-/

namespace Gateware

/-- An operator applied at a width and signedness. -/
structure Operation where
  operator : Operator
  width : Nat
  signed : Bool
deriving Repr, DecidableEq

/-- The word for a signedness. -/
def signWord (signed : Bool) : String := if signed then "signed" else "unsigned"

namespace Operation

/-- The text of an operation, such as `add signed32`. -/
def render (op : Operation) : String :=
  s!"{op.operator.mnemonic} {signWord op.signed}{op.width}"

/-- The numbers that order operations, the most significant first. -/
def key (op : Operation) : Nat × Nat × Nat := (op.operator.rank, op.width, op.signed.toNat)

/-- Whether one operation comes before another. -/
def before (a b : Operation) : Bool :=
  let (r, w, s) := a.key
  let (r', w', s') := b.key
  r < r' || (r == r' && (w < w' || (w == w' && s < s')))

/-! ## JSON -/

/-- An operation as JSON. -/
def toJson (op : Operation) : Json :=
  .object [("operator", op.operator.toJson), ("width_bits", .int op.width),
    ("signed", .bool op.signed)]

/-- An operation from JSON. -/
def ofJson (depth : Nat) (j : Json) : Option Operation :=
  match j.record ["operator", "width_bits", "signed"] depth with
  | some (depth, [operator, width, signed]) => do
    let operator ← Json.required (Operator.ofJson depth) operator
    let width ← Json.required (Json.asNat maxWord) width
    let signed ← Json.required Json.asBool signed
    some ⟨operator, width, signed⟩
  | _ => none

/-- An operation from JSON text. -/
def read (source : String) : Option Operation :=
  (Json.read source).bind (ofJson Json.nestingLimit)

end Operation

end Gateware
