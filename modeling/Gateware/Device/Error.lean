import Gateware.Manifest
import Gateware.Settings.Store
import Gateware.Timing.Table

/-!
# What can go wrong with a device

Choosing a device, setting up its memory and asking for its delays fail with a `DeviceError`.
-/

namespace Gateware

/-- Why a device cannot be used as requested. -/
inductive DeviceError where
  /-- No device has this name. -/
  | unknown (name : String) (known : List String)
  /-- An alignment is not a positive power of two. -/
  | invalidAlignment (value : Int64)
  /-- A header would have a negative number of cells. -/
  | invalidPrefix (value : Int64)
  /-- A buffer is larger than the memory of the device. -/
  | outOfMemory (device : String) (required available : Nat)
  /-- The device has no valid manifest. -/
  | manifest (error : ManifestError)
  /-- A setting of the request cannot be used. -/
  | setting (error : SettingError)
  /-- The delays of the device cannot be had. -/
  | timing (error : TimingError)

/-- The message of a device error. -/
def DeviceError.message : DeviceError → String
  | unknown name known =>
    let listed := String.intercalate ", " known
    s!"unknown device '{name}' (supported devices: {listed})"
  | invalidAlignment value =>
    let shown := toString value.toInt
    s!"memory alignment {shown} is not a positive power of two"
  | invalidPrefix value =>
    let shown := toString value.toInt
    s!"minimum memory prefix {shown} is negative"
  | outOfMemory device required available =>
    s!"device '{device}' has {available} bytes of memory but the layout needs {required}"
  | manifest error => error.message
  | setting error => error.message
  | timing error => error.message

end Gateware
