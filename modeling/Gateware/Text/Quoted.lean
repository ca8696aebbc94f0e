import Gateware.Number.Digits
import Gateware.Text.Hidden

/-!
# Quoted texts

Texts in listings of values stand in double quotes.  The quote, the backslash and the common
control characters have short escapes; every other hidden character is written by its code point.
-/

namespace Gateware.Text

/-- A character inside a quoted text. -/
def quotedChar (c : Char) : String :=
  if c == '"' then "\\\""
  else if c == '\\' then "\\\\"
  else if c == '\n' then "\\n"
  else if c == '\r' then "\\r"
  else if c == '\t' then "\\t"
  else if c == '\x00' then "\\0"
  else if isVisible c then c.toString
  else "\\u\x7b" ++ hexDigits 1 c.toNat ++ "\x7d"

/-- A text in quotes. -/
def quoted (s : String) : String := "\"" ++ String.join (s.toList.map quotedChar) ++ "\""

/-- Quoted texts in brackets, with commas between them. -/
def quotedList (texts : List String) : String :=
  "[" ++ String.intercalate ", " (texts.map quoted) ++ "]"

end Gateware.Text
