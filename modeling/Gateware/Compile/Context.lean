import Gateware.Device
import Gateware.Files.Path
import Gateware.Hardware.Description
import Gateware.Json.Printer
import Gateware.Memory.Layout
import Gateware.Program

/-!
# The context of a compilation

What the steps of a compilation share: the program, the request and the device on one side, and the
results that they put together on the other.
-/

namespace Gateware

/-- The cost of a member in hardware. -/
structure MemberCost where
  member : String
  /-- The name of the entity of the member. -/
  entity : String
  /-- The delay of the longest chain of operators. -/
  cycles : Cycles
  /-- The clock cycles that the entity waits for its result. -/
  wait : Nat

/-- A description that has been written to a file. -/
structure Artifact where
  path : String
  /-- The fingerprint of the file. -/
  checksum : Fingerprint
deriving Repr, DecidableEq

/-- An artifact in JSON. -/
def Artifact.toJson (a : Artifact) : Json :=
  .object [("artifact_path", .text a.path), ("checksum", .int a.checksum.toNat)]

/-- What the steps of a compilation share. -/
structure Context where
  program : Program
  request : Request
  device : Device
  /-- The channel to the device, once it has been chosen. -/
  channel : Option String := none
  /-- The layout of the largest member in memory. -/
  layout : Option MemoryLayout := none
  /-- The costs of the members. -/
  costs : List MemberCost := []
  /-- The generated description. -/
  description : Option Description := none
  /-- The written description. -/
  implementation : Option Artifact := none

namespace Context

/-- The path of the artifact. -/
def artifactPath (c : Context) : String :=
  Path.join c.request.outputDir (c.request.top ++ "." ++ HardwareLanguage.vhdl.fileExtension)

end Context

end Gateware
