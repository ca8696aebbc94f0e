import Gateware.Hardware.Type
import Mathlib.Tactic.Common

/-!
# Values

What programs and hardware compute with: rows of bits of any width, each taken as a number with or
without a sign, and truth values.  A computation may also come to nothing.  It is `malformed` if no
inputs give it a value, as where a name means nothing or operands do not fit together, and
`undefined` if only these inputs give it none: a division by zero, or a shift by a negative amount.

* `number` — what a row of bits counts as.
* `extended` — a row cut to its low bits, or extended by copies of its sign or by zeros.
* `Bits.convert` — a value taken over into another type.
-/

namespace Gateware

/-! ## Rows of bits -/

/-- The number that a row of bits stands for. -/
def number (signed : Bool) {w : Nat} (row : BitVec w) : Int :=
  if signed then row.toInt else row.toNat

/-- A row of bits at another width: its low bits, or as many copies of its sign in front, or as many
zeros if it has no sign. -/
def extended (signed : Bool) {w : Nat} (width : Nat) (row : BitVec w) : BitVec width :=
  if signed then row.signExtend width else row.setWidth width

@[simp] lemma extended_self (signed : Bool) {w : Nat} (row : BitVec w) :
    extended signed w row = row := by
  cases signed <;> simp [extended]

/-- A row is determined by its number. -/
@[simp] lemma ofInt_number (signed : Bool) {w : Nat} (row : BitVec w) :
    BitVec.ofInt w (number signed row) = row := by
  cases signed <;> simp [number]

lemma number_eq_zero {signed : Bool} {w : Nat} {row : BitVec w} :
    number signed row = 0 ↔ row = 0#w := by
  constructor
  · intro h
    rw [← ofInt_number signed row, h]
    simp
  · rintro rfl
    cases signed <;> simp [number]

/-- Narrowing keeps the low bits, sign or not. -/
lemma extended_of_le (signed : Bool) {w width : Nat} (h : width ≤ w) (row : BitVec w) :
    extended signed width row = row.setWidth width := by
  cases signed with
  | false => rfl
  | true => exact BitVec.signExtend_eq_setWidth_of_le row h

/-- Widening keeps what lies in the low bits. -/
lemma setWidth_extended (signed : Bool) {w width : Nat} (h : w ≤ width) (row : BitVec w) :
    (extended signed width row).setWidth w = row := by
  cases signed with
  | false => simp [extended, BitVec.setWidth_setWidth_of_le _ h]
  | true =>
      ext i hi
      have hwide : i < width := Nat.lt_of_lt_of_le hi h
      simp [extended, BitVec.getElem_signExtend, hi, hwide]

/-! ## Values and outcomes -/

/-- A row of bits with the type that it is taken in. -/
structure Bits where
  type : BitType
  row : BitVec type.width
deriving DecidableEq

/-- What an expression stands for. -/
inductive Value where
  | vector (bits : Bits)
  | truth (holds : Bool)
deriving DecidableEq

/-- Why there is no value. -/
inductive Fault where
  /-- There is none for any inputs. -/
  | malformed
  /-- There is none for these inputs. -/
  | undefined
deriving Repr, DecidableEq

namespace Bits

/-- The number that a value stands for. -/
def number (x : Bits) : Int := Gateware.number x.type.signed x.row

/-- The bits of a value taken over into a type.  Whether they are extended by the sign is up to the
type that they come from. -/
def convert (t : BitType) (x : Bits) : BitVec t.width := extended x.type.signed t.width x.row

@[simp] lemma convert_self (t : BitType) (row : BitVec t.width) :
    (Bits.mk t row).convert t = row :=
  extended_self t.signed row

end Bits

/-- The bits of a value that is no truth value. -/
def Value.bits : Value → Except Fault Bits
  | .vector x => .ok x
  | .truth _ => .error .malformed

@[simp] lemma Value.bits_vector (x : Bits) : (Value.vector x).bits = .ok x := rfl

/-- The outcome of a computation that may be undefined but is not malformed. -/
def outcome : Option Bits → Except Fault Value
  | some x => .ok (.vector x)
  | none => .error .undefined

/-- The outcome of such a computation in a type. -/
def defined (t : BitType) (row : Option (BitVec t.width)) : Except Fault Value :=
  outcome (row.map (Bits.mk t))

@[simp] lemma defined_some (t : BitType) (row : BitVec t.width) :
    defined t (some row) = .ok (.vector ⟨t, row⟩) := rfl

end Gateware
