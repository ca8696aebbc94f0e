import Gateware.Device.Error
import Gateware.Journal
import Gateware.Request

/-!
# Memory settings

Data goes to the hardware as a row of 32-bit cells behind a header, and the whole buffer is padded
to the alignment of the device.  `MemorySettings` are the alignment in bytes and the size of the
header in cells.

A device sets up its memory by a `MemoryScript`: it changes one setting after another, each time
with a check, and may look at the outcome before it goes on.  Settings change in no other way, so
the alignment is a power of two whatever the script does.
-/

namespace Gateware

/-- How buffers are laid out in the memory of a device. -/
structure MemorySettings where
  /-- The alignment of buffers in bytes. -/
  alignment : Nat := 1
  /-- The size of the header in cells. -/
  minimumPrefix : Nat := 0
deriving Repr, DecidableEq

/-- Whether a number is a power of two. -/
def isPowerOfTwo (n : Nat) : Bool := n == Nat.pow 2 n.log2

namespace MemorySettings

/-- The key of the user's memory settings. -/
def overridesKey : String := "MemoryConfiguration"

/-- Sets the alignment, which has to be a positive power of two. -/
def setAlignment (m : MemorySettings) (value : Int64) : Except DeviceError MemorySettings :=
  if 0 < value.toInt && isPowerOfTwo value.toInt.toNat then
    .ok { m with alignment := value.toInt.toNat }
  else .error (.invalidAlignment value)

/-- Sets the size of the header, which must not be negative. -/
def setMinimumPrefix (m : MemorySettings) (value : Int64) : Except DeviceError MemorySettings :=
  if 0 ≤ value.toInt then .ok { m with minimumPrefix := value.toInt.toNat }
  else .error (.invalidPrefix value)

end MemorySettings

/-! ## Changing settings -/

/-- The outcome of a change: the settings as they are then, whether it failed or not. -/
structure MemoryOutcome where
  notes : List Note
  settings : MemorySettings
  result : Except DeviceError Unit

namespace MemoryOutcome

/-- Nothing done. -/
def unchanged (m : MemorySettings) (result : Except DeviceError Unit) : MemoryOutcome :=
  ⟨[], m, result⟩

/-- The outcome of a setter: a refused value changes nothing. -/
def ofSetter (m : MemorySettings) : Except DeviceError MemorySettings → MemoryOutcome
  | .ok m' => ⟨[], m', .ok ()⟩
  | .error e => unchanged m (.error e)

/-- The outcome with a line noted before everything else. -/
def noting (text : String) (o : MemoryOutcome) : MemoryOutcome :=
  { o with notes := .line ⟨.memory, .debug, text⟩ :: o.notes }

/-- Goes on with the settings, unless the change failed. -/
def andThen (o : MemoryOutcome) (next : MemorySettings → MemoryOutcome) : MemoryOutcome :=
  match o.result with
  | .error _ => o
  | .ok () =>
    let o' := next o.settings
    { o' with notes := o.notes ++ o'.notes }

end MemoryOutcome

/-- A value that the user has set, if there is one. -/
def overrideWith (name : String) (set : MemorySettings → Int64 → Except DeviceError MemorySettings)
    (value : Option Int64) (m : MemorySettings) : MemoryOutcome :=
  match value with
  | none => .unchanged m (.ok ())
  | some v =>
    let shown := toString v.toInt
    (MemoryOutcome.ofSetter m (set m v)).noting s!"memory {name} overridden to {shown}"

/-- Takes over the settings of the user, first the alignment and then the header. -/
def MemorySettings.override (m : MemorySettings) (request : Request) : MemoryOutcome :=
  match request.settings.get SettingKind.memory overridesKey with
  | .error e => .unchanged m (.error (.setting e))
  | .ok none => .unchanged m (.ok ())
  | .ok (some o) =>
    (overrideWith "alignment" setAlignment o.alignment m).andThen
      (overrideWith "prefix" setMinimumPrefix o.minimumPrefix)

/-- A change to memory settings. -/
inductive MemoryChange where
  | alignment (value : Int64)
  | minimumPrefix (value : Int64)
  | overrides (request : Request)

/-- Makes a change. -/
def MemoryChange.apply (m : MemorySettings) : MemoryChange → MemoryOutcome
  | alignment value => .ofSetter m (m.setAlignment value)
  | minimumPrefix value => .ofSetter m (m.setMinimumPrefix value)
  | overrides request => m.override request

/-! ## Scripts -/

/-- How a device sets up its memory: it is done, or makes a change and decides how to go on. -/
inductive MemoryScript where
  | done (result : Except DeviceError Unit)
  | change (change : MemoryChange)
      (next : MemorySettings → Except DeviceError Unit → MemoryScript)

namespace MemoryScript

/-- Runs a script. -/
def run : MemoryScript → MemorySettings → MemoryOutcome
  | done result, m => .unchanged m result
  | change c next, m =>
    let o := c.apply m
    let o' := run (next o.settings o.result) o.settings
    { o' with notes := o.notes ++ o'.notes }

/-- Makes changes in order, up to the first that fails. -/
def inOrder : List MemoryChange → MemoryScript
  | [] => done (.ok ())
  | c :: cs => change c fun _ result =>
    match result with
    | .ok () => inOrder cs
    | .error e => done (.error e)

end MemoryScript

end Gateware
