/-!
# Paths

A path is a text with slashes between its parts.  An empty part and the part `.` stay where they
are, and `..` goes up.
-/

namespace Gateware.Path

/-- The pieces between slashes. -/
def pieces : List Char → List (List Char)
  | [] => [[]]
  | c :: cs =>
    if c == '/' then [] :: pieces cs
    else match pieces cs with
      | [] => [[c]]
      | p :: ps => (c :: p) :: ps

/-- The parts of a path. -/
def parts (path : String) : List String := (pieces path.toList).map String.ofList

/-- A path below a directory.  A path that starts with a slash is not below any. -/
def join (directory path : String) : String :=
  if path.startsWith "/" || directory.isEmpty then path
  else if directory.endsWith "/" then directory ++ path
  else directory ++ "/" ++ path

/-- Parts without those at the end that stay where they are; a single `.` is kept. -/
def trimmed (parts : List String) : List String :=
  match parts with
  | [] => []
  | first :: rest =>
    first :: (rest.reverse.dropWhile fun p => p.isEmpty || p == ".").reverse

/-- The parts of the directory around a path. -/
def parent (parts : List String) : List String := trimmed (trimmed parts).dropLast

end Gateware.Path
