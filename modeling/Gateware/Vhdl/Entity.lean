import Gateware.Text.Blank

/-!
# VHDL entities

An entity with one architecture.  Declarations and statements are texts of one or more lines, which
are indented when the entity is written out.
-/

namespace Gateware.Vhdl

/-- The direction of a port. -/
inductive Direction where
  | input
  | output
deriving Repr, DecidableEq

/-- The word for a direction. -/
def Direction.keyword : Direction → String
  | input => "in"
  | output => "out"

/-- A port of an entity. -/
structure EntityPort where
  name : String
  direction : Direction
  /-- The type, as text. -/
  type : String
deriving Repr, DecidableEq

/-- An entity with its architecture. -/
structure Entity where
  name : String
  ports : List EntityPort := []
  declarations : List String := []
  statements : List String := []
deriving Repr, DecidableEq

namespace Entity

/-- A port without its separator. -/
def portText (p : EntityPort) : String := s!"        {p.name} : {p.direction.keyword} {p.type}"

/-- The list of ports; nothing if there are none. -/
def portList (ports : List EntityPort) : String :=
  if ports.isEmpty then ""
  else "    port (\n" ++ String.intercalate ";\n" (ports.map portText) ++ "\n    );\n"

/-- A line, indented unless it is empty. -/
def indentedLine (line : List Char) : String :=
  if line.isEmpty then "\n" else "    " ++ String.ofList line ++ "\n"

/-- The lines of a text, indented. -/
def indented (text : String) : String :=
  String.join ((Text.lines text.toList).map indentedLine)

/-- What precedes every entity. -/
def preamble : String :=
  "-- Generated by kiln. Do not edit.\nlibrary ieee;\nuse ieee.std_logic_1164.all;\n" ++
    "use ieee.numeric_std.all;\n\n"

/-- An entity as text.  An empty line separates statements. -/
def render (e : Entity) : String :=
  preamble ++ s!"entity {e.name} is\n" ++ portList e.ports ++ s!"end entity {e.name};\n\n" ++
    s!"architecture rtl of {e.name} is\n" ++ String.join (e.declarations.map indented) ++ "begin\n" ++
    String.intercalate "\n" (e.statements.map indented) ++ "end architecture rtl;\n"

end Entity

end Gateware.Vhdl
