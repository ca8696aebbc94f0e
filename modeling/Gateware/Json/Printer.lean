import Gateware.Json.Value
import Gateware.Number.Digits

/-!
# Writing JSON text

Two layouts: `Json.compact` without any blanks, and `Json.pretty` with one item a line, indented by
two spaces a level, and empty containers closed on the spot.  In strings the quote, the backslash
and control characters are escaped, and every other character stands for itself.
-/

namespace Gateware.Json

/-- A character inside a string. -/
def escapeChar (c : Char) : String :=
  if c == '"' then "\\\""
  else if c == '\\' then "\\\\"
  else if c == '\x08' then "\\b"
  else if c == '\x0c' then "\\f"
  else if c == '\n' then "\\n"
  else if c == '\r' then "\\r"
  else if c == '\t' then "\\t"
  else if c.toNat < 0x20 then "\\u" ++ hexDigits 4 c.toNat
  else c.toString

/-- A string in quotes. -/
def quote (s : String) : String :=
  "\"" ++ String.join (s.toList.map escapeChar) ++ "\""

/-- A number that is not whole, in scientific notation. -/
def realText (mantissa exponent : Int) : String := toString mantissa ++ "e" ++ toString exponent

mutual

/-- The text of a value without blanks. -/
def compact : Json → String
  | null => "null"
  | bool b => if b then "true" else "false"
  | int n => toString n
  | real m e => realText m e
  | text s => quote s
  | array items => "[" ++ compactItems items ++ "]"
  | object fields => "\x7b" ++ compactFields fields ++ "\x7d"
  | unreadable => "null"

/-- Items with commas between them. -/
def compactItems : List Json → String
  | [] => ""
  | [j] => compact j
  | j :: js => compact j ++ "," ++ compactItems js

/-- Fields with commas between them. -/
def compactFields : List (String × Json) → String
  | [] => ""
  | [(k, j)] => quote k ++ ":" ++ compact j
  | (k, j) :: fs => quote k ++ ":" ++ compact j ++ "," ++ compactFields fs

end

/-- The start of a line at an indentation level. -/
def newline (level : Nat) : String := "\n" ++ String.ofList (List.replicate (2 * level) ' ')

mutual

/-- The text of a value at an indentation level, one item a line. -/
def prettyAt (level : Nat) : Json → String
  | null => "null"
  | bool b => if b then "true" else "false"
  | int n => toString n
  | real m e => realText m e
  | text s => quote s
  | array [] => "[]"
  | array (j :: js) =>
    "[" ++ newline (level + 1) ++ prettyAt (level + 1) j ++ prettyItems (level + 1) js
      ++ newline level ++ "]"
  | object [] => "\x7b\x7d"
  | object ((k, j) :: fs) =>
    "\x7b" ++ newline (level + 1) ++ quote k ++ ": " ++ prettyAt (level + 1) j
      ++ prettyFields (level + 1) fs ++ newline level ++ "\x7d"
  | unreadable => "null"

/-- The items after the first. -/
def prettyItems (level : Nat) : List Json → String
  | [] => ""
  | j :: js => "," ++ newline level ++ prettyAt level j ++ prettyItems level js

/-- The fields after the first. -/
def prettyFields (level : Nat) : List (String × Json) → String
  | [] => ""
  | (k, j) :: fs =>
    "," ++ newline level ++ quote k ++ ": " ++ prettyAt level j ++ prettyFields level fs

end

/-- The text of a value, one item a line. -/
def pretty (j : Json) : String := prettyAt 0 j

end Gateware.Json
