/-!
# Blanks, words and lines

Reports, requests and command arguments are read by splitting a text at blanks and at line ends.
A *blank* is a character with the Unicode property `White_Space`; there are twenty-five of them,
and the zero-width characters are not among them.

* `isBlank` — the property, as ranges of code points.
* `trim` — a text without its leading and trailing blanks.
* `words` — the maximal runs of characters that are not blank.
* `lines` — the pieces between line feeds.  A carriage return directly before a line feed belongs
  to the line end, and a line feed at the very end opens no further line.

Everything works on `List Char`, by recursion on the list.
-/

namespace Gateware.Text

/-! ## Blanks -/

/-- The characters with the Unicode property `White_Space`. -/
def isBlank (c : Char) : Bool :=
  let n := c.toNat
  (0x09 ≤ n && n ≤ 0x0D) || n == 0x20 || n == 0x85 || n == 0xA0 || n == 0x1680
    || (0x2000 ≤ n && n ≤ 0x200A) || n == 0x2028 || n == 0x2029 || n == 0x202F || n == 0x205F
    || n == 0x3000

/-- A text without the blanks at its start. -/
def trimStart (cs : List Char) : List Char := cs.dropWhile isBlank

/-- A text without the blanks at its end. -/
def trimEnd (cs : List Char) : List Char := (cs.reverse.dropWhile isBlank).reverse

/-- A text without the blanks at both ends. -/
def trim (cs : List Char) : List Char := trimEnd (trimStart cs)

/-- `trim` on strings. -/
def trimmed (s : String) : String := String.ofList (trim s.toList)

/-- Whether a text has no character other than blanks. -/
def isBlankText (s : String) : Bool := s.toList.all isBlank

/-! ## Words -/

/-- The maximal runs of non-blank characters, in order. -/
def words : List Char → List (List Char)
  | [] => []
  | c :: cs =>
    if isBlank c then words cs
    else match cs with
      | [] => [[c]]
      | d :: _ =>
        if isBlank d then [c] :: words cs
        else match words cs with
          | [] => [[c]]
          | w :: ws => (c :: w) :: ws

/-! ## Lines -/

/-- The lines of a text.  A line ends at a line feed, together with one carriage return before it;
what follows the last line feed is a line only if it is not empty. -/
def lines : List Char → List (List Char)
  | [] => []
  | '\n' :: cs => [] :: lines cs
  | '\r' :: '\n' :: cs => [] :: lines cs
  | c :: cs =>
    match lines cs with
    | [] => [[c]]
    | l :: ls => (c :: l) :: ls

/-! ## Letter case -/

/-- ASCII letters in lower case; every other character is kept. -/
def lowered (s : String) : String := s.map Char.toLower

end Gateware.Text
