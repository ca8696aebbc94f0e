import Gateware.Json.Reader
import Gateware.Number.Reading
import Gateware.Toml.Value

/-!
# TOML strings and numbers

The four forms of strings and the forms of numbers.  A reader takes the text from where the value
starts and returns it with what follows; `none` is a text that no document may contain.

Strings in double quotes know escapes, strings in single quotes do not, and each kind has a form in
tripled quotes that may span lines.  A line end inside a string is always one line feed.
-/

namespace Gateware.Toml

/-! ## Characters -/

/-- Blanks within a line. -/
def isSpace (c : Char) : Bool := c == ' ' || c == '\t'

/-- A text without the blanks at its start. -/
def skipSpace (cs : List Char) : List Char := cs.dropWhile isSpace

/-- Characters that may stand in strings and comments: no control characters but the tab. -/
def isPlain (c : Char) : Bool := c == '\t' || (0x20 ≤ c.toNat && c.toNat != 0x7F)

/-- What follows a line end. -/
def lineFeed : List Char → Option (List Char)
  | '\n' :: rest => some rest
  | '\r' :: '\n' :: rest => some rest
  | _ => none

/-- The character with a code point. -/
def charOf (n : Nat) : Option Char :=
  if n < 0xD800 || (0xE000 ≤ n && n < 0x110000) then some (Char.ofNat n) else none

/-- The number that hexadecimal digits denote. -/
def hexNumber (cs : List Char) : Option Nat :=
  cs.foldlM (fun n c => (Json.hexValue c).map (16 * n + ·)) 0

/-- The character of an escape after its backslash, and what follows. -/
def readEscape : List Char → Option (Char × List Char)
  | 'b' :: rest => some ('\x08', rest)
  | 't' :: rest => some ('\t', rest)
  | 'n' :: rest => some ('\n', rest)
  | 'f' :: rest => some ('\x0c', rest)
  | 'r' :: rest => some ('\r', rest)
  | '"' :: rest => some ('"', rest)
  | '\\' :: rest => some ('\\', rest)
  | 'u' :: rest =>
    if rest.length < 4 then none
    else (hexNumber (rest.take 4)).bind charOf |>.map fun c => (c, rest.drop 4)
  | 'U' :: rest =>
    if rest.length < 8 then none
    else (hexNumber (rest.take 8)).bind charOf |>.map fun c => (c, rest.drop 8)
  | _ => none

/-! ## Strings of one line -/

/-- The inside of a string in double quotes, and what follows the closing quote. -/
def readBasic : (fuel : Nat) → List Char → Option (List Char × List Char)
  | 0, _ => none
  | _ + 1, [] => none
  | _ + 1, '"' :: rest => some ([], rest)
  | fuel + 1, '\\' :: rest => do
    let (c, rest) ← readEscape rest
    let (cs, rest) ← readBasic fuel rest
    some (c :: cs, rest)
  | fuel + 1, c :: rest =>
    if isPlain c then do
      let (cs, rest) ← readBasic fuel rest
      some (c :: cs, rest)
    else none

/-- The inside of a string in single quotes, and what follows the closing quote. -/
def readLiteral : List Char → Option (List Char × List Char)
  | [] => none
  | '\'' :: rest => some ([], rest)
  | c :: rest =>
    if isPlain c then do
      let (cs, rest) ← readLiteral rest
      some (c :: cs, rest)
    else none

/-! ## Strings of several lines -/

/-- How a run of quotes ends a string of several lines: the quotes that still belong to it, and
what follows the closing three.  Up to two quotes may stand directly before the closing ones. -/
def closing (quote : Char) (cs : List Char) : Option (List Char × List Char) :=
  let run := (cs.takeWhile (· == quote)).length
  if run < 3 then none
  else
    let own := min (run - 3) 2
    some (List.replicate own quote, cs.drop (own + 3))

/-- Whether a backslash before this text joins lines: only blanks up to the line end follow. -/
def joinsLines (cs : List Char) : Bool := (lineFeed (skipSpace cs)).isSome

/-- What follows a joint between lines: all blanks and line ends are left out. -/
def skipJoint : List Char → List Char
  | [] => []
  | '\r' :: '\n' :: rest => skipJoint rest
  | c :: rest => if isSpace c || c == '\n' then skipJoint rest else c :: rest

/-- The inside of a string in tripled double quotes, and what follows the closing quotes. -/
def readBasicLines : (fuel : Nat) → List Char → Option (List Char × List Char)
  | 0, _ => none
  | fuel + 1, cs =>
    match closing '"' cs with
    | some done => some done
    | none =>
      match cs with
      | [] => none
      | '\\' :: rest =>
        if joinsLines rest then readBasicLines fuel (skipJoint rest)
        else do
          let (c, rest) ← readEscape rest
          let (cs, rest) ← readBasicLines fuel rest
          some (c :: cs, rest)
      | c :: rest =>
        match lineFeed cs with
        | some rest => do
          let (cs, rest) ← readBasicLines fuel rest
          some ('\n' :: cs, rest)
        | none =>
          if isPlain c then do
            let (cs, rest) ← readBasicLines fuel rest
            some (c :: cs, rest)
          else none

/-- The inside of a string in tripled single quotes, and what follows the closing quotes. -/
def readLiteralLines : (fuel : Nat) → List Char → Option (List Char × List Char)
  | 0, _ => none
  | fuel + 1, cs =>
    match closing '\'' cs with
    | some done => some done
    | none =>
      match cs with
      | [] => none
      | c :: rest =>
        match lineFeed cs with
        | some rest => do
          let (cs, rest) ← readLiteralLines fuel rest
          some ('\n' :: cs, rest)
        | none =>
          if isPlain c then do
            let (cs, rest) ← readLiteralLines fuel rest
            some (c :: cs, rest)
          else none

/-- What follows the opening quotes of a string of several lines: a line end right behind them is
left out. -/
def afterOpening (cs : List Char) : List Char := (lineFeed cs).getD cs

/-- A string of any form at the start of a text, and what follows it. -/
def readText (cs : List Char) : Option (String × List Char) :=
  let fuel := cs.length + 1
  let inside := match cs with
    | '"' :: '"' :: '"' :: rest => readBasicLines fuel (afterOpening rest)
    | '"' :: rest => readBasic fuel rest
    | '\'' :: '\'' :: '\'' :: rest => readLiteralLines fuel (afterOpening rest)
    | '\'' :: rest => readLiteral rest
    | _ => none
  inside.map fun (s, rest) => (String.ofList s, rest)

/-! ## Numbers -/

/-- Digits in groups: every underscore stands between two digits.  Returns the digits without
underscores, and what follows. -/
def readGroups (isDigit : Char → Bool) : List Char → Option (List Char × List Char)
  | [] => none
  | [c] => if isDigit c then some ([c], []) else none
  | c :: d :: rest =>
    if !isDigit c then none
    else if d == '_' then (readGroups isDigit rest).map fun (ds, after) => (c :: ds, after)
    else if isDigit d then (readGroups isDigit (d :: rest)).map fun (ds, after) => (c :: ds, after)
    else some ([c], d :: rest)

/-- The whole part of a decimal number, which starts with zero only if it is zero. -/
def readWholeGroups : List Char → Option (List Char × List Char)
  | '0' :: rest => some (['0'], rest)
  | cs => readGroups Char.isDigit cs

/-- A whole number, if 64 bits can hold it. -/
def intWithin (n : Int) : Option Toml :=
  if Int64.minValue.toInt ≤ n && n ≤ Int64.maxValue.toInt then some (int (Int64.ofInt n)) else none

/-- The value of a digit in bases up to sixteen. -/
def isDigitIn (base : Nat) (c : Char) : Bool :=
  match Json.hexValue c with
  | some n => n < base
  | none => false

/-- The value of digits in a base. -/
def digitsIn (base : Nat) (cs : List Char) : Nat :=
  cs.foldl (fun n c => base * n + (Json.hexValue c).getD 0) 0

/-- A whole number in a base other than ten, after the mark of the base. -/
def readInBase (base : Nat) (cs : List Char) : Option (Toml × List Char) := do
  let (ds, rest) ← readGroups (isDigitIn base) cs
  let n ← intWithin (digitsIn base ds)
  some (n, rest)

/-- The fraction of a decimal, if a point follows. -/
def readGroupedFraction : List Char → Option (Option (List Char) × List Char)
  | '.' :: rest => (readGroups Char.isDigit rest).map fun (ds, rest) => (some ds, rest)
  | cs => some (none, cs)

/-- The exponent of a decimal, if its mark follows. -/
def readGroupedExponent : List Char → Option (Option Int × List Char)
  | c :: rest =>
    if c == 'e' || c == 'E' then
      let (negative, ds) := splitSign rest
      (readGroups Char.isDigit ds).map fun (ds, rest) =>
        let n : Int := digitsValue ds
        (some (if negative then -n else n), rest)
    else some (none, c :: rest)
  | [] => some (none, [])

/-- A decimal number after its sign: whole without point and exponent, and floating otherwise.  A
number that is too large for a floating-point number is refused unless it is negative. -/
def readDecimal (negative : Bool) (cs : List Char) : Option (Toml × List Char) := do
  let (whole, rest) ← readWholeGroups cs
  let (fraction, rest) ← readGroupedFraction rest
  let (power, rest) ← readGroupedExponent rest
  if fraction.isNone && power.isNone then
    let n : Int := digitsValue whole
    let value ← intWithin (if negative then -n else n)
    some (value, rest)
  else
    let digits := fraction.getD []
    let x := Scientific.toFloat ⟨digitsValue (whole ++ digits), power.getD 0 - (digits.length : Int)⟩
    if x.isInf && !negative then none
    else some (float (if negative then -x else x), rest)

/-- A number at the start of a text, and what follows it. -/
def readNumber (cs : List Char) : Option (Toml × List Char) :=
  match cs with
  | '0' :: 'x' :: rest => readInBase 16 rest
  | '0' :: 'o' :: rest => readInBase 8 rest
  | '0' :: 'b' :: rest => readInBase 2 rest
  | _ =>
    let (negative, rest) := splitSign cs
    match rest with
    | 'i' :: 'n' :: 'f' :: rest => some (float (if negative then -infinity else infinity), rest)
    | 'n' :: 'a' :: 'n' :: rest => some (float (if negative then -notANumber else notANumber), rest)
    | _ => readDecimal negative rest

end Gateware.Toml
