/-!
# Digit strings

Natural numbers as strings of digits: the value of a decimal digit string, and decimal and
hexadecimal digits padded with zeros to a given width.
-/

namespace Gateware

/-- The value of a decimal digit. -/
def digitValue (c : Char) : Nat := c.toNat - '0'.toNat

/-- The value of a decimal digit string, most significant digit first. -/
def digitsValue (cs : List Char) : Nat :=
  cs.foldl (fun n c => 10 * n + digitValue c) 0

/-- The digits of a number in a base, padded with zeros in front to at least `width` digits. -/
def paddedDigits (base width n : Nat) : List Char :=
  let ds := Nat.toDigits base n
  List.replicate (width - ds.length) '0' ++ ds

/-- The hexadecimal digits of a number, padded with zeros in front to at least `width` digits. -/
def hexDigits (width n : Nat) : String := String.ofList (paddedDigits 16 width n)

end Gateware
