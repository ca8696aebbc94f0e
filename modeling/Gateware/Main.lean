import Gateware.Cli.Run

/-!
# The program

Reads the files that the command line names, runs the command, writes the directories and files that
it made, and prints what there is to print.
-/

namespace Gateware

/-- The tree with a file of the working directory, if it can be read. -/
def loadFile (files : FileTree) (path : String) : IO FileTree := do
  try
    let content ← IO.FS.readFile path
    let parent := String.intercalate "/" (Path.parent (Path.parts path))
    let files := (files.makeDirectories parent).1
    pure (files.settle (files.write path content)).1
  catch _ => pure files

/-- Writes a file, with the directories around it. -/
def storeFile (path content : String) : IO Unit := do
  let parent := String.intercalate "/" (Path.parent (Path.parts path))
  unless parent.isEmpty do IO.FS.createDirAll parent
  IO.FS.writeFile path content

end Gateware

open Gateware in
/-- Runs the command line. -/
def main (words : List String) : IO UInt32 := do
  let files ← (Cli.inputs words).foldlM loadFile {}
  let printout := Cli.run words files
  for path in printout.files.directories do IO.FS.createDirAll path
  for (path, content) in printout.files.contents do
    unless files.contents.contains (path, content) do storeFile path content
  IO.print printout.output
  IO.eprint printout.messages
  return printout.code.toUInt32
