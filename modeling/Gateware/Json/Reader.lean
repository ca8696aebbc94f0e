import Gateware.Json.Value
import Gateware.Number.Reading

/-!
# Reading JSON text

A strict reader for JSON: one value with blanks around it, no comments, no trailing commas, no
control characters inside strings.  `Json.read` is total; it recurses on a bound for the number of
values still to come, and the length of the text is always bound enough, since every value takes at
least one character.

* `readUnits`, `joinUnits` — the inside of a string: characters and sixteen-bit escapes, and their
  combination into characters.
* `readNumber` — a number.
* `Json.read` — a whole text.
-/

namespace Gateware.Json

/-! ## Blanks -/

/-- The characters that may stand between the parts of a value. -/
def isSpace (c : Char) : Bool := c == ' ' || c == '\t' || c == '\n' || c == '\r'

/-- A text without the blanks at its start. -/
def skipSpace (cs : List Char) : List Char := cs.dropWhile isSpace

/-! ## Strings -/

/-- The value of a hexadecimal digit. -/
def hexValue (c : Char) : Option Nat :=
  if '0' ≤ c && c ≤ '9' then some (c.toNat - '0'.toNat)
  else if 'a' ≤ c && c ≤ 'f' then some (c.toNat - 'a'.toNat + 10)
  else if 'A' ≤ c && c ≤ 'F' then some (c.toNat - 'A'.toNat + 10)
  else none

/-- The number that four hexadecimal digits denote. -/
def hexUnit (a b c d : Char) : Option Nat := do
  let a ← hexValue a
  let b ← hexValue b
  let c ← hexValue c
  let d ← hexValue d
  some (((a * 16 + b) * 16 + c) * 16 + d)

/-- The character that a one-letter escape stands for. -/
def simpleEscape : Char → Option Char
  | '"' => some '"'
  | '\\' => some '\\'
  | '/' => some '/'
  | 'b' => some '\x08'
  | 'f' => some '\x0c'
  | 'n' => some '\n'
  | 'r' => some '\r'
  | 't' => some '\t'
  | _ => none

/-- The inside of a string up to its closing quote, as plain characters and sixteen-bit units, and
the text after the quote. -/
def readUnits : List Char → Option (List (Char ⊕ Nat) × List Char)
  | [] => none
  | '"' :: rest => some ([], rest)
  | '\\' :: 'u' :: a :: b :: c :: d :: rest => do
    let unit ← hexUnit a b c d
    let (units, rest) ← readUnits rest
    some (.inr unit :: units, rest)
  | '\\' :: e :: rest => do
    let c ← simpleEscape e
    let (units, rest) ← readUnits rest
    some (.inl c :: units, rest)
  | c :: rest =>
    if c.toNat < 0x20 || c == '\\' then none
    else do
      let (units, rest) ← readUnits rest
      some (.inl c :: units, rest)

/-- The characters of a string.  A leading surrogate combines with the trailing one that follows it
at once; any other surrogate denotes nothing. -/
def joinUnits : List (Char ⊕ Nat) → Option (List Char)
  | [] => some []
  | .inl c :: units => (joinUnits units).map (c :: ·)
  | .inr n :: units =>
    if 0xD800 ≤ n && n < 0xDC00 then
      match units with
      | .inr m :: units =>
        if 0xDC00 ≤ m && m < 0xE000 then
          (joinUnits units).map (Char.ofNat (0x10000 + (n - 0xD800) * 0x400 + (m - 0xDC00)) :: ·)
        else none
      | _ => none
    else if 0xDC00 ≤ n && n < 0xE000 then none
    else (joinUnits units).map (Char.ofNat n :: ·)

/-- A string after its opening quote: its text, unless it has none, and what follows. -/
def readString (cs : List Char) : Option (Option String × List Char) := do
  let (units, rest) ← readUnits cs
  some ((joinUnits units).map String.ofList, rest)

/-! ## Numbers -/

/-- The digits of a whole part, which starts with zero only if it is zero, and what follows. -/
def readWhole (cs : List Char) : Option (List Char × List Char) :=
  match cs with
  | '0' :: rest => some (['0'], rest)
  | c :: _ => if c.isDigit then some (cs.takeWhile Char.isDigit, cs.dropWhile Char.isDigit) else none
  | [] => none

/-- A fraction if there is a point, which a digit has to follow. -/
def readFraction (cs : List Char) : Option (Option (List Char) × List Char) :=
  match cs with
  | '.' :: rest =>
    let ds := rest.takeWhile Char.isDigit
    if ds.isEmpty then none else some (some ds, rest.dropWhile Char.isDigit)
  | _ => some (none, cs)

/-- A power of ten if there is an exponent mark, which digits have to follow. -/
def readPower (cs : List Char) : Option (Option Int × List Char) :=
  match cs with
  | c :: rest =>
    if c == 'e' || c == 'E' then
      let (negative, ds) := splitSign rest
      let digits := ds.takeWhile Char.isDigit
      if digits.isEmpty then none
      else
        let n : Int := digitsValue digits
        some (some (if negative then -n else n), ds.dropWhile Char.isDigit)
    else some (none, cs)
  | [] => some (none, [])

/-- Whole digits put behind a number as long as it has room in 64 bits, and how many were left
out. -/
def keepWhole (kept : Nat) : List Char → Nat × Nat
  | [] => (kept, 0)
  | d :: ds =>
    let next := kept * 10 + digitsValue [d]
    if next ≤ maxLong then keepWhole next ds else (kept, ds.length + 1)

/-- The digits of a fraction put behind a number as long as it has room in 64 bits, and how many
these were. -/
def keepFraction (kept : Nat) : List Char → Nat × Nat
  | [] => (kept, 0)
  | d :: ds =>
    let next := kept * 10 + digitsValue [d]
    if next ≤ maxLong then
      let (kept, count) := keepFraction next ds
      (kept, count + 1)
    else (kept, 0)

/-- The least number that is too large for floating point: half a unit above the largest one. -/
def overflowBound : Nat := Nat.pow 2 1024 - Nat.pow 2 970

/-- Whether a number is within the range of floating point.  The digits that have room in 64 bits
and the power of ten are each rounded to a floating-point number before they are multiplied, so the
answer for a number next to the bound may be either. -/
def isInRange (whole fraction : List Char) (power : Int) : Bool :=
  let (kept, dropped) := keepWhole 0 whole
  let (kept, count) := keepFraction kept fraction
  let exponent := power + (dropped : Int) - (count : Int)
  kept == 0 || exponent < 0 ||
    (exponent ≤ 308 &&
      roundToMantissa kept * roundToMantissa (Nat.pow 10 exponent.toNat) < overflowBound)

/-- A number after its sign, and what follows it. -/
def readUnsigned (negative : Bool) (cs : List Char) : Option (Json × List Char) := do
  let (whole, cs) ← readWhole cs
  let (fraction, cs) ← readFraction cs
  let (power, cs) ← readPower cs
  let digits := fraction.getD []
  let n := digitsValue (whole ++ digits)
  let exponent := power.getD 0 - (digits.length : Int)
  let signed : Int := if negative then -(n : Int) else n
  let value :=
    if !isInRange whole digits (power.getD 0) then unreadable
    else if fraction.isNone && power.isNone && !(negative && n == 0) then int signed
    else real signed exponent
  some (value, cs)

/-- A number, and what follows it. -/
def readNumber : List Char → Option (Json × List Char)
  | '-' :: rest => readUnsigned true rest
  | cs => readUnsigned false cs

/-! ## Values -/

/-- A fixed word at the start of a text, and what follows it. -/
def stripWord : List Char → List Char → Option (List Char)
  | [], cs => some cs
  | _ :: _, [] => none
  | w :: ws, c :: cs => if w == c then stripWord ws cs else none

mutual

/-- A value and what follows it; `fuel` bounds how many values may be begun. -/
def readValue : (fuel : Nat) → List Char → Option (Json × List Char)
  | 0, _ => none
  | fuel + 1, cs =>
    match skipSpace cs with
    | [] => none
    | '"' :: rest => do
      let (s, rest) ← readString rest
      some (match s with
        | some s => text s
        | none => unreadable, rest)
    | '[' :: rest =>
      match skipSpace rest with
      | ']' :: rest => some (array [], rest)
      | rest => do
        let (items, rest) ← readItems fuel rest
        some (array items, rest)
    | '\x7b' :: rest =>
      match skipSpace rest with
      | '\x7d' :: rest => some (object [], rest)
      | rest => do
        let (fields, rest) ← readFields fuel rest
        some (match fields with
          | some fields => object fields
          | none => unreadable, rest)
    | c :: rest =>
      if c == 't' then (stripWord "rue".toList rest).map (bool true, ·)
      else if c == 'f' then (stripWord "alse".toList rest).map (bool false, ·)
      else if c == 'n' then (stripWord "ull".toList rest).map (null, ·)
      else readNumber (c :: rest)

/-- The items of an array up to its closing bracket, and what follows that. -/
def readItems : (fuel : Nat) → List Char → Option (List Json × List Char)
  | 0, _ => none
  | fuel + 1, cs => do
    let (item, rest) ← readValue fuel cs
    match skipSpace rest with
    | ']' :: rest => some ([item], rest)
    | ',' :: rest =>
      let (items, rest) ← readItems fuel rest
      some (item :: items, rest)
    | _ => none

/-- The fields of an object up to its closing brace, unless one of the keys denotes no text, and
what follows the brace. -/
def readFields : (fuel : Nat) → List Char → Option (Option (List (String × Json)) × List Char)
  | 0, _ => none
  | fuel + 1, cs =>
    match skipSpace cs with
    | '"' :: rest => do
      let (key, rest) ← readString rest
      match skipSpace rest with
      | ':' :: rest =>
        let (value, rest) ← readValue fuel rest
        match skipSpace rest with
        | '\x7d' :: rest => some (key.map fun k => [(k, value)], rest)
        | ',' :: rest =>
          let (fields, rest) ← readFields fuel rest
          some (do
            let k ← key
            let fs ← fields
            some ((k, value) :: fs), rest)
        | _ => none
      | _ => none
    | _ => none

end

/-- The value that a text holds, with nothing but blanks around it. -/
def read (source : String) : Option Json := do
  let cs := source.toList
  let (value, rest) ← readValue (2 * cs.length + 2) cs
  if (skipSpace rest).isEmpty then some value else none

end Gateware.Json
