/-!
# Types of values

A value of a program is a row of bits that counts as a number with or without a sign.  In memory it
takes whole cells of 32 bits.
-/

namespace Gateware

/-- The type of a value. -/
structure BitType where
  /-- The number of bits. -/
  width : Nat
  /-- Whether the highest bit is a sign. -/
  signed : Bool
deriving Repr, DecidableEq

/-- The number of memory cells of a value. -/
def BitType.cells (t : BitType) : Nat := (t.width + 31) / 32

end Gateware
