import Gateware.Files.Path

/-!
# The tree of files

The files that a compilation reads and writes, as a tree below the working directory.  Operations
fail for the same reasons, and with the same texts, as those of the operating system.

Every node is kept under its location, the list of names that leads to it.  A location outside the
working directory starts with `/` or with one `..` for every step up.  The directories around the
working directory are taken to be there, with nothing in them but what is written in the course of
the work.
-/

namespace Gateware

/-- Why an operation on files failed. -/
inductive FileError where
  | notFound
  | alreadyThere
  | notDirectory
  | isDirectory
  | nameTooLong
  /-- A path must not contain the character zero. -/
  | zeroInPath
deriving Repr, DecidableEq

/-- The message of a file error. -/
def FileError.message : FileError → String
  | notFound => "No such file or directory (os error 2)"
  | alreadyThere => "File exists (os error 17)"
  | notDirectory => "Not a directory (os error 20)"
  | isDirectory => "Is a directory (os error 21)"
  | nameTooLong => "File name too long (os error 36)"
  | zeroInPath => "file name contained an unexpected NUL byte"

/-- A file or a directory. -/
inductive FileNode where
  | file (content : String)
  | directory
deriving Repr, DecidableEq

/-- Files and directories by location. -/
structure FileTree where
  nodes : List (List String × FileNode) := []

namespace FileTree

/-- Whether a location is the working directory or one of those around it. -/
def isAround (location : List String) : Bool :=
  location == ["/"] || location.all (· == "..")

/-- The node at a location. -/
def node? (t : FileTree) (location : List String) : Option FileNode :=
  if isAround location then some .directory else t.nodes.lookup location

/-- The location of the directory around a location.  There is none around the topmost one. -/
def stepUp (location : List String) : List String :=
  if location == ["/"] then location
  else if isAround location then location ++ [".."]
  else location.dropLast

/-- The tree with a node at a location, in place of what was there. -/
def put (t : FileTree) (location : List String) (node : FileNode) : FileTree :=
  ⟨(location, node) :: t.nodes.filter (·.1 != location)⟩

/-- The tree without what is at a location. -/
def erase (t : FileTree) (location : List String) : FileTree :=
  ⟨t.nodes.filter (·.1 != location)⟩

/-- Follows parts of a path from a location.  All but the last have to lead to directories. -/
def follow (t : FileTree) : (location : List String) → (parts : List String) →
    Except FileError (List String)
  | location, [] => .ok location
  | location, part :: parts =>
    match t.node? location with
    | none => .error .notFound
    | some (.file _) => .error .notDirectory
    | some .directory =>
      if part.isEmpty || part == "." then follow t location parts
      else if part == ".." then follow t (stepUp location) parts
      else if 255 < part.utf8ByteSize then .error .nameTooLong
      else follow t (location ++ [part]) parts

/-- Why the parts of a path make no path at all, if they do not. -/
def pathError? (parts : List String) : Option FileError :=
  let path := String.intercalate "/" parts
  if path.toList.contains '\x00' then some .zeroInPath
  else if path.isEmpty then some .notFound
  else if 4096 ≤ path.utf8ByteSize then some .nameTooLong
  else none

/-- Where a path starts: at the topmost directory if it starts with a slash. -/
def startOf : List String → List String
  | "" :: _ :: _ => ["/"]
  | _ => []

/-- The location that the parts of a path lead to. -/
def locateParts (t : FileTree) (parts : List String) : Except FileError (List String) :=
  match pathError? parts with
  | some e => .error e
  | none => t.follow (startOf parts) parts

/-- The location that a path leads to. -/
def locate (t : FileTree) (path : String) : Except FileError (List String) :=
  t.locateParts (Path.parts path)

/-- The content of a file. -/
def read (t : FileTree) (path : String) : Except FileError String :=
  match t.locate path with
  | .error e => .error e
  | .ok location =>
    match t.node? location with
    | none => .error .notFound
    | some .directory => .error .isDirectory
    | some (.file content) => .ok content

/-- Writes a file, in place of one that was there. -/
def write (t : FileTree) (path content : String) : Except FileError FileTree :=
  match t.locate path with
  | .error e => .error e
  | .ok location =>
    match t.node? location with
    | some .directory => .error .isDirectory
    | _ => .ok (t.put location (.file content))

/-- Removes a file. -/
def remove (t : FileTree) (path : String) : Except FileError FileTree :=
  match t.locate path with
  | .error e => .error e
  | .ok location =>
    match t.node? location with
    | none => .error .notFound
    | some .directory => .error .isDirectory
    | some (.file _) => .ok (t.erase location)

/-! ## Directories -/

/-- Whether parts of a path lead to a directory. -/
def isDirectory (t : FileTree) (parts : List String) : Bool :=
  match t.locateParts parts with
  | .ok location => t.node? location == some .directory
  | .error _ => false

/-- Parts of a path without the slashes at its end. -/
def withoutSlashes (parts : List String) : List String :=
  match parts with
  | [] => []
  | first :: rest => first :: (rest.reverse.dropWhile String.isEmpty).reverse

/-- Makes a directory inside one that is there.  Slashes at the end of the path belong to its
length, and to nothing else. -/
def makeDirectory (t : FileTree) (parts : List String) : Except FileError FileTree :=
  match pathError? parts with
  | some e => .error e
  | none =>
    match t.follow (startOf parts) (withoutSlashes parts) with
    | .error e => .error e
    | .ok location =>
      match t.node? location with
      | some _ => .error .alreadyThere
      | none => .ok (t.put location .directory)

/-- Makes a directory, which may be there already. -/
def ensureDirectory (t : FileTree) (parts : List String) : Except FileError FileTree :=
  match t.makeDirectory parts with
  | .ok t => .ok t
  | .error e => if t.isDirectory parts then .ok t else .error e

/-- The tree after an attempt to change it, and whether the attempt succeeded.  One that failed
changes nothing. -/
def settle (t : FileTree) : Except FileError FileTree → FileTree × Except FileError Unit
  | .ok changed => (changed, .ok ())
  | .error e => (t, .error e)

/-- Makes a directory and those around it that are missing, from the outermost on.  `fuel` bounds
their number. -/
def makeDirectoriesWithin : (fuel : Nat) → FileTree → List String →
    FileTree × Except FileError Unit
  | 0, t, _ => (t, .error .notFound)
  | fuel + 1, t, parts =>
    if parts == [] || parts == [""] then (t, .ok ())
    else match t.ensureDirectory parts with
      | .error .notFound =>
        match makeDirectoriesWithin fuel t (Path.parent parts) with
        | (t, .ok ()) => t.settle (t.ensureDirectory parts)
        | (t, .error e) => (t, .error e)
      | attempt => t.settle attempt

/-- Makes a directory and those around it that are missing.  The empty path is the working
directory.  If one of them cannot be made, those around it stay. -/
def makeDirectories (t : FileTree) (path : String) : FileTree × Except FileError Unit :=
  let parts := Path.parts path
  makeDirectoriesWithin (parts.length + 1) t parts

/-! ## Listings -/

/-- Puts an entry at its place among entries in ascending order of their paths. -/
def insertListed (entry : String × String) : List (String × String) → List (String × String)
  | [] => [entry]
  | other :: rest =>
    if entry.1 < other.1 then entry :: other :: rest else other :: insertListed entry rest

/-- The path that leads to a location. -/
def pathTo : List String → String
  | "/" :: names => "/" ++ String.intercalate "/" names
  | names => String.intercalate "/" names

/-- The path and content of all files, in ascending order of the paths. -/
def contents (t : FileTree) : List (String × String) :=
  t.nodes.foldl (fun listed (location, node) =>
    match node with
    | .file content => insertListed (pathTo location, content) listed
    | .directory => listed) []

/-- The paths of all directories. -/
def directories (t : FileTree) : List String :=
  t.nodes.filterMap fun (location, node) =>
    if node == .directory then some (pathTo location) else none

/-- Whether a location is inside the working directory. -/
def isInside : List String → Bool
  | name :: _ => name != "/" && name != ".."
  | [] => true

/-- The path and content of all files inside the working directory, in ascending order of the
paths. -/
def files (t : FileTree) : List (String × String) :=
  contents ⟨t.nodes.filter fun (location, _) => isInside location⟩

end FileTree

end Gateware
