import Gateware.Toml.Scalar
import Gateware.Toml.Tree

/-!
# Reading TOML documents

A document is a sequence of lines: blank ones, comments, headers in brackets that open a table, and
assignments to keys of the open table.  `Toml.read` gives the entries of the whole document, or
nothing if a line is wrong or a key is defined twice.

Arrays and inline tables may be nested less than eighty deep, and a dotted key has fewer than eighty
parts.  The recursion is on a bound for the number of characters left.
-/

namespace Gateware.Toml

/-- How deeply values may be nested, and how many parts a key may have: less than this. -/
def nestingBound : Nat := 80

/-! ## Line ends and comments -/

/-- What follows the end of a line; the end of the document ends a line too. -/
def lineEnd : List Char → Option (List Char)
  | [] => some []
  | cs => lineFeed cs

/-- What follows a comment, if one starts here. -/
def skipComment : List Char → List Char
  | '#' :: rest => rest.dropWhile isPlain
  | cs => cs

/-- What follows the rest of a line with nothing on it but blanks and a comment. -/
def restOfLine (cs : List Char) : Option (List Char) := lineEnd (skipComment (skipSpace cs))

/-- What follows blanks, comments and line ends inside an array. -/
def skipFiller : (fuel : Nat) → List Char → Option (List Char)
  | 0, _ => none
  | fuel + 1, cs =>
    match skipSpace cs with
    | '#' :: rest => (lineFeed (rest.dropWhile isPlain)).bind (skipFiller fuel)
    | '\n' :: rest => skipFiller fuel rest
    | '\r' :: rest => (lineFeed ('\r' :: rest)).bind (skipFiller fuel)
    | cs => some cs

/-! ## Keys -/

/-- Characters of a key without quotes. -/
def isBare (c : Char) : Bool := c.isAlphanum || c == '_' || c == '-'

/-- One part of a key, and what follows it. -/
def readKeyPart (cs : List Char) : Option (String × List Char) :=
  let quoted (inside : Option (List Char × List Char)) : Option (String × List Char) :=
    inside.map fun (s, rest) => (String.ofList s, rest)
  match cs with
  | '"' :: rest => quoted (readBasic (rest.length + 1) rest)
  | '\'' :: rest => quoted (readLiteral rest)
  | _ =>
    let part := cs.takeWhile isBare
    if part.isEmpty then none else some (String.ofList part, cs.dropWhile isBare)

/-- The parts of a key, with dots between them, and what follows. -/
def readKeyParts : (fuel : Nat) → List Char → Option (List String × List Char)
  | 0, _ => none
  | fuel + 1, cs => do
    let (part, rest) ← readKeyPart (skipSpace cs)
    match skipSpace rest with
    | '.' :: rest =>
      let (parts, rest) ← readKeyParts fuel rest
      some (part :: parts, rest)
    | rest => some ([part], rest)

/-- A key: the parts before the last, the last, and what follows. -/
def readKey (cs : List Char) : Option (List String × String × List Char) := do
  let (parts, rest) ← readKeyParts (cs.length + 1) cs
  let last ← parts.getLast?
  if nestingBound ≤ parts.length then none else some (parts.dropLast, last, rest)

/-! ## Values -/

mutual

/-- A value and what follows it.  `depth` is the number of containers around it. -/
def readValue : (fuel : Nat) → (depth : Nat) → List Char → Option (Toml × List Char)
  | 0, _, _ => none
  | fuel + 1, depth, cs =>
    match cs with
    | [] => none
    | '[' :: rest =>
      if nestingBound ≤ depth + 1 then none
      else do
        let (items, rest) ← readItems fuel (depth + 1) rest
        some (array items, rest)
    | '\x7b' :: rest =>
      if nestingBound ≤ depth + 1 then none
      else match skipSpace rest with
        | '\x7d' :: rest => some (table [], rest)
        | rest => do
          let (entries, rest) ← readInline fuel (depth + 1) [] rest
          some (table (finishEntries entries), rest)
    | c :: rest =>
      if c == '"' || c == '\'' then
        (readText cs).map fun (s, rest) => (text s, rest)
      else if c == 't' then (Json.stripWord "rue".toList rest).map (bool true, ·)
      else if c == 'f' then (Json.stripWord "alse".toList rest).map (bool false, ·)
      else readNumber cs

/-- The items of an array up to its closing bracket, and what follows that.  A comma may follow the
last item. -/
def readItems : (fuel : Nat) → (depth : Nat) → List Char → Option (List Toml × List Char)
  | 0, _, _ => none
  | fuel + 1, depth, cs => do
    match ← skipFiller (cs.length + 1) cs with
    | ']' :: rest => some ([], rest)
    | cs =>
      let (item, rest) ← readValue fuel depth cs
      match ← skipFiller (rest.length + 1) rest with
      | ']' :: rest => some ([item], rest)
      | ',' :: rest =>
        let (items, rest) ← readItems fuel depth rest
        some (item :: items, rest)
      | _ => none

/-- The entries of an inline table up to its closing brace, and what follows that. -/
def readInline : (fuel : Nat) → (depth : Nat) → Entries → List Char →
    Option (Entries × List Char)
  | 0, _, _, _ => none
  | fuel + 1, depth, entries, cs => do
    let (path, key, rest) ← readKey cs
    match rest with
    | '=' :: rest =>
      let (value, rest) ← readValue fuel depth (skipSpace rest)
      let entries ← entries.addValue path key value
      match skipSpace rest with
      | '\x7d' :: rest => some (entries, rest)
      | ',' :: rest => readInline fuel depth entries rest
      | _ => none
    | _ => none

end

/-! ## Documents -/

/-- A document in the middle of reading: its entries, and the header that is open. -/
structure Progress where
  entries : Entries
  header : List String

/-- Reads a header in brackets, after its first bracket. -/
def readHeader (p : Progress) (cs : List Char) : Option (Progress × List Char) :=
  match cs with
  | '[' :: rest => do
    let (path, key, rest) ← readKey rest
    match rest with
    | ']' :: ']' :: rest =>
      let rest ← restOfLine rest
      let entries ← p.entries.openItem path key
      some (⟨entries, path ++ [key]⟩, rest)
    | _ => none
  | _ => do
    let (path, key, rest) ← readKey cs
    match rest with
    | ']' :: rest =>
      let rest ← restOfLine rest
      let entries ← p.entries.openTable path key
      some (⟨entries, path ++ [key]⟩, rest)
    | _ => none

/-- Reads an assignment. -/
def readAssignment (p : Progress) (cs : List Char) : Option (Progress × List Char) := do
  let (path, key, rest) ← readKey cs
  match rest with
  | '=' :: rest =>
    let rest := skipSpace rest
    let (value, rest) ← readValue (2 * rest.length + 2) 0 rest
    let rest ← restOfLine rest
    let entries ← p.entries.addBelow p.header path key value
    some ({ p with entries }, rest)
  | _ => none

/-- Reads the lines of a document. -/
def readDocument : (fuel : Nat) → Progress → List Char → Option Progress
  | 0, _, _ => none
  | fuel + 1, p, cs =>
    match skipSpace cs with
    | [] => some p
    | '#' :: rest => (restOfLine ('#' :: rest)).bind (readDocument fuel p)
    | '\n' :: rest => readDocument fuel p rest
    | '\r' :: rest => (lineFeed ('\r' :: rest)).bind (readDocument fuel p)
    | '[' :: rest => do
      let (p, rest) ← readHeader p rest
      readDocument fuel p rest
    | cs => do
      let (p, rest) ← readAssignment p cs
      readDocument fuel p rest

/-- The entries of a document, in the order in which they were written.  A byte order mark in front of it is left out. -/
def read (source : String) : Option (List (String × Toml)) := do
  let cs := match source.toList with
    | c :: rest => if c.toNat == 0xFEFF then rest else c :: rest
    | [] => []
  let p ← readDocument (cs.length + 2) ⟨[], []⟩ cs
  some (finishEntries p.entries)

/-- The settings in a document: its entries, with settled values. -/
def readSettled (source : String) : Option (List (String × Toml)) :=
  (read source).bind settleEntries

end Gateware.Toml
