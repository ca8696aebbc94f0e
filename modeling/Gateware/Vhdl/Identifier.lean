/-!
# VHDL identifiers

A basic identifier has letters, digits and single underscores, starts with a letter, does not end
with an underscore, and is not a reserved word.  Letter case makes no difference in VHDL.

`sanitize` makes an identifier from any name: valid ones stay as they are, and in others every run
of characters that may not stand in one becomes an underscore.
-/

namespace Gateware.Vhdl

/-- The reserved words. -/
def reservedWords : List String :=
  ["abs", "access", "after", "alias", "all", "and", "architecture", "array", "assert", "begin",
   "block", "body", "buffer", "bus", "case", "component", "configuration", "constant", "downto",
   "else", "elsif", "end", "entity", "exit", "file", "for", "function", "generate", "generic",
   "if", "in", "inout", "is", "label", "library", "loop", "map", "mod", "nand", "new", "next",
   "nor", "not", "null", "of", "on", "open", "or", "others", "out", "package", "port",
   "procedure", "process", "range", "record", "register", "rem", "report", "return", "rol",
   "ror", "select", "signal", "sla", "sll", "sra", "srl", "subtype", "then", "to", "type",
   "until", "use", "variable", "wait", "when", "while", "with", "xnor", "xor"]

/-- Whether two underscores stand side by side. -/
def hasDoubleUnderscore : List Char → Bool
  | '_' :: '_' :: _ => true
  | _ :: cs => hasDoubleUnderscore cs
  | [] => false

/-- Whether a name has the form of an identifier: letters, digits and single underscores, with a
letter first and no underscore last. -/
def isBasicName (name : String) : Bool :=
  match name.toList with
  | [] => false
  | c :: cs =>
    c.isAlpha && (c :: cs).all (fun c => c.isAlphanum || c == '_') &&
      (c :: cs).getLast? != some '_' && !hasDoubleUnderscore (c :: cs)

/-- What two names have in common if they are the same identifier. -/
def identifierKey (name : String) : String := String.ofList (name.toList.map Char.toLower)

/-- Whether a name is a reserved word, in any letter case. -/
def isReserved (name : String) : Bool := reservedWords.contains (identifierKey name)

/-- Whether a name is an identifier that is not reserved. -/
def isValid (name : String) : Bool := isBasicName name && !isReserved name

/-- Writes one more character of a text.  In place of a character that is no letter or digit it
writes an underscore, unless there is one already.  What has been written so far is given last
character first. -/
def writeNext (written : List Char) (c : Char) : List Char :=
  if c.isAlphanum then c :: written
  else if written.head? == some '_' then written
  else '_' :: written

/-- A text without the underscores at its ends. -/
def trimUnderscores (cs : List Char) : List Char :=
  (cs.reverse.dropWhile (· == '_')).reverse.dropWhile (· == '_')

/-- A text without other characters at its ends, and with one underscore for every run of them. -/
def condensed (cs : List Char) : List Char := trimUnderscores (cs.foldl writeNext []).reverse

/-- Whether a text starts with a letter. -/
def startsWithLetter : List Char → Bool
  | [] => false
  | c :: _ => c.isAlpha

/-- An identifier for a name. -/
def sanitize (name : String) : String :=
  if isValid name then name
  else
    let cs := condensed name.toList
    if cs.isEmpty then "unnamed"
    else if !startsWithLetter cs || isReserved (String.ofList cs) then "k_" ++ String.ofList cs
    else String.ofList cs

end Gateware.Vhdl
