/-!
# Control sequences

A text can hold characters that a terminal obeys instead of showing them: control characters, and
sequences that start with the escape character.  `Text.withoutControls` leaves all of them out, and
keeps tabs and the ends of lines and pages.

* after the escape character, `[` starts a *sequence*, which ends with its first character from `@`
  on;
* `]` starts a *command*, which ends with the bell;
* `P` starts a string for a device, which has parameters in front, and `X`, `^` and `_` start a
  plain *string*; both end with the terminator, the byte `9C`, even if it is part of the code of
  another character;
* any other character ends the escape at once, except that blanks and punctuation up to `/` may
  stand before it.

Cancelling characters end everything, and the escape character starts anew.  A tab or the end of a
line inside an escape or a sequence *pauses* it: the text after it is shown, up to the next control
character, at which the sequence goes on.
-/

namespace Gateware.Text

/-- Where a text stands with respect to control sequences. -/
inductive ControlState where
  /-- Outside of all of them. -/
  | ground
  /-- After the escape character. -/
  | escape
  /-- In an escape that has gone on for more than one character. -/
  | longEscape
  | sequence
  /-- At the start of a string for a device. -/
  | device
  | deviceParameters
  /-- Between the parameters and the string itself. -/
  | deviceFunction
  | string
  | command
deriving Repr, DecidableEq

/-- The byte that ends a string. -/
def terminator : UInt8 := 0x9C

/-- Tabs and the ends of lines and pages. -/
def isLayout (c : Char) : Bool := c == '\t' || c == '\n' || c == '\x0c' || c == '\r'

/-- Whether a character has a code between two others. -/
def isBetween (low high : Nat) (c : Char) : Bool := low ≤ c.toNat && c.toNat ≤ high

namespace ControlState

/-- The state after a character that is not cancelling and not the escape character. -/
def advance (c : Char) : ControlState → ControlState
  | ground => ground
  | escape =>
    if isBetween 0x20 0x2F c then longEscape
    else if c == '[' then sequence
    else if c == ']' then command
    else if c == 'P' then device
    else if c == 'X' || c == '^' || c == '_' then string
    else if isBetween 0x30 0x7E c then ground
    else escape
  | longEscape => if isBetween 0x30 0x7E c then ground else longEscape
  | sequence => if isBetween 0x40 0x7E c then ground else sequence
  | device =>
    if isBetween 0x20 0x2F c then deviceFunction
    else if isBetween 0x30 0x3F c then deviceParameters
    else if isBetween 0x40 0x7E c then string
    else device
  | deviceParameters =>
    if isBetween 0x20 0x2F c then deviceFunction
    else if isBetween 0x3C 0x7E c then string
    else deviceParameters
  | deviceFunction => if isBetween 0x30 0x7E c then string else deviceFunction
  | string => if (String.utf8EncodeChar c).contains terminator then ground else string
  | command => if c == '\x07' then ground else command

/-- The state after a character. -/
def next (s : ControlState) (c : Char) : ControlState :=
  if c == '\x1b' then escape
  else if c == '\x18' || c == '\x1a' then ground
  else s.advance c

/-- Whether a character is shown. -/
def shows (s : ControlState) (c : Char) : Bool :=
  match s with
  | ground => isLayout c || (0x20 ≤ c.toNat && c != '\x7f')
  | escape => isLayout c
  | longEscape => isLayout c
  | sequence => isLayout c
  | _ => false

end ControlState

/-- The characters of a text that are shown, from a state on, which may be paused.  A character
beyond ASCII ends what is paused. -/
def shownFrom (paused : Bool) (s : ControlState) : List Char → List Char
  | [] => []
  | c :: cs =>
    if paused && ControlState.ground.shows c then
      c :: shownFrom true (if 0x80 ≤ c.toNat then .ground else s) cs
    else if s.shows c then c :: shownFrom true (s.next c) cs
    else shownFrom false (s.next c) cs

/-- A text without control characters and control sequences. -/
def withoutControls (s : String) : String := String.ofList (shownFrom false .ground s.toList)

end Gateware.Text
