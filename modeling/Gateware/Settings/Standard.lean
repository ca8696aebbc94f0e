import Gateware.Settings.Store
import Gateware.Toml.Record

/-!
# The standard kinds of settings

The settings that requests carry: plain values, the parameters of a serial port, and the memory
settings with which a user overrides those of a device.
-/

namespace Gateware

/-- The parameters of a serial port. -/
structure PortSettings where
  baudRate : UInt32 := 0
  parity : Bool := false
deriving Repr, DecidableEq

/-- Memory settings of the user; what is not given stays as the device has it. -/
structure MemoryOverrides where
  /-- The alignment in bytes. -/
  alignment : Option Int64 := none
  /-- The size of the header in cells. -/
  minimumPrefix : Option Int64 := none
deriving DecidableEq

/-- The kinds of settings. -/
inductive SettingKind where
  | port
  | memory
  | word
  | long
  | text
  | longs
  | toml
deriving Repr, DecidableEq

namespace SettingKind

/-- The values of a kind. -/
abbrev Value : SettingKind → Type
  | port => PortSettings
  | memory => MemoryOverrides
  | word => UInt32
  | long => Int64
  | text => String
  | longs => List Int64
  | toml => Toml

/-- The value of a setting that nobody has set. -/
def fallback : (kind : SettingKind) → Value kind
  | port => {}
  | memory => {}
  | word => (0 : UInt32)
  | long => (0 : Int64)
  | text => ""
  | longs => []
  | toml => Toml.table []

/-- The parameters of a serial port in TOML. -/
def readPort (value : Toml) : Option PortSettings :=
  match value.record false [["baud_rate"], ["parity"]] with
  | some [baudRate, parity] => do
    let baudRate ← Toml.orElse 0 Toml.asWord baudRate
    let parity ← Toml.orElse false Toml.asBool parity
    some ⟨baudRate, parity⟩
  | _ => none

/-- Memory overrides in TOML. -/
def readMemory (value : Toml) : Option MemoryOverrides :=
  match value.record false [["alignment"], ["minimum_prefix", "minimumPrefix"]] with
  | some [alignment, minimumPrefix] => do
    let alignment ← Toml.optional Toml.asInt alignment
    let minimumPrefix ← Toml.optional Toml.asInt minimumPrefix
    some ⟨alignment, minimumPrefix⟩
  | _ => none

/-- The value that raw TOML stands for. -/
def convert : (kind : SettingKind) → Toml → Option (Value kind)
  | port => readPort
  | memory => readMemory
  | word => Toml.asWord
  | long => Toml.asInt
  | text => Toml.asText
  | longs => Toml.asList Toml.asInt
  | toml => Toml.settle

end SettingKind

/-- The schema of the settings that requests carry. -/
def Schema.standard : Schema where
  Kind := SettingKind
  kindEq := inferInstance
  Value := SettingKind.Value
  fallback := SettingKind.fallback
  convert := SettingKind.convert

/-- The settings of a request. -/
abbrev Settings := Store Schema.standard

end Gateware
