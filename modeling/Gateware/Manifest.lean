import Gateware.Frequency
import Gateware.Json.Printer
import Gateware.Json.Reader
import Gateware.Json.Record

/-!
# Device manifests

The manifest of a device says what a program may rely on: name and family, the vendor's tool chain,
the clock, the memory that the host may use, the communication channels in order of preference, and
the platforms a build may name.

A manifest starts as a `Draft`, filled in by hand or read from JSON, and `Draft.build` is the only
way from a draft to a manifest.  It refuses a blank name, a clock that stands still and a device
without memory, in this order, keeps the first of repeated channels and sorts the platforms.
-/

namespace Gateware

/-- Why a draft is no manifest. -/
inductive ManifestError where
  | emptyName
  | zeroClock (device : String)
  | zeroMemory (device : String)
deriving Repr, DecidableEq

/-- The message of a manifest error. -/
def ManifestError.message : ManifestError → String
  | emptyName => "device manifest has an empty name"
  | zeroClock device => s!"device '{device}' has a zero clock frequency"
  | zeroMemory device => s!"device '{device}' has no available memory"

/-- What is known about a device. -/
structure Manifest where
  name : String
  family : String
  toolChain : String
  clock : Frequency
  /-- Bytes of device memory that the host may use. -/
  memory : Nat
  /-- Channels in order of preference. -/
  channels : List String
  /-- Platform identifiers in order. -/
  platforms : List String
deriving Repr, DecidableEq

/-! ## Keeping lists tidy -/

/-- A list with an item at its end, unless the item is in it already. -/
def appendNew (items : List String) (item : String) : List String :=
  if items.contains item then items else items ++ [item]

/-- The first occurrences of the items of a list, in order. -/
def firstOccurrences (items : List String) : List String := items.foldl appendNew []

/-- A sorted list with an item at its place, unless the item is in it already. -/
def insertSorted (item : String) : List String → List String
  | [] => [item]
  | x :: xs =>
    if item < x then item :: x :: xs
    else if item == x then x :: xs
    else x :: insertSorted item xs

/-- The items of a list in order, each once. -/
def sortedSet (items : List String) : List String :=
  items.foldl (fun sorted item => insertSorted item sorted) []

/-! ## Drafts -/

/-- The fields of a manifest before they have been checked. -/
structure Draft where
  name : String
  family : String := ""
  toolChain : String := ""
  clock : Frequency := ⟨0⟩
  memory : Nat := 0
  channels : List String := []
  platforms : List String := []
deriving Repr, DecidableEq

namespace Draft

/-- The draft with one more channel, at the end of the preference order. -/
def addChannel (d : Draft) (channel : String) : Draft :=
  { d with channels := appendNew d.channels channel }

/-- The draft with one more platform. -/
def addPlatform (d : Draft) (platform : String) : Draft :=
  { d with platforms := insertSorted platform d.platforms }

/-- The manifest that a draft describes. -/
def build (d : Draft) : Except ManifestError Manifest :=
  if Text.isBlankText d.name then .error .emptyName
  else if d.clock.hz == 0 then .error (.zeroClock d.name)
  else if d.memory == 0 then .error (.zeroMemory d.name)
  else .ok
    { name := d.name
      family := d.family
      toolChain := d.toolChain
      clock := d.clock
      memory := d.memory
      channels := firstOccurrences d.channels
      platforms := sortedSet d.platforms }

/-- A draft from JSON. -/
def ofJson (depth : Nat) (j : Json) : Option Draft :=
  let texts := Json.items fun _ => Json.asText
  match j.record ["name", "family", "tool_chain", "clock_frequency", "available_memory_bytes",
      "supported_channels", "supported_platforms"] depth with
  | some (depth, [name, family, toolChain, clock, memory, channels, platforms]) => do
    let name ← Json.required Json.asText name
    let family ← Json.optional "" Json.asText family
    let toolChain ← Json.optional "" Json.asText toolChain
    let clock ← Json.required (Json.asNat maxLong) clock
    let memory ← Json.required (Json.asNat maxLong) memory
    let channels ← Json.optional [] (texts depth) channels
    let platforms ← Json.optional [] (texts depth) platforms
    some ⟨name, family, toolChain, ⟨clock⟩, memory, channels, platforms⟩
  | _ => none

end Draft

namespace Manifest

/-- The length of a clock cycle in nanoseconds. -/
def periodNs (m : Manifest) : Float := m.clock.periodNs

/-- The channel used when a request names none. -/
def defaultChannel (m : Manifest) : Option String := m.channels.head?

/-- Whether the device can talk over a channel. -/
def supportsChannel (m : Manifest) (channel : String) : Bool := m.channels.contains channel

/-- A manifest as JSON. -/
def toJson (m : Manifest) : Json :=
  .object [("name", .text m.name), ("family", .text m.family), ("tool_chain", .text m.toolChain),
    ("clock_frequency", m.clock.toJson), ("available_memory_bytes", .int m.memory),
    ("supported_channels", .ofTexts m.channels), ("supported_platforms", .ofTexts m.platforms)]

/-- A manifest from JSON, which passes through the same checks as a draft. -/
def ofJson (depth : Nat) (j : Json) : Option Manifest := do
  let draft ← Draft.ofJson depth j
  match draft.build with
  | .ok m => some m
  | .error _ => none

/-- A manifest from JSON text. -/
def read (source : String) : Option Manifest :=
  (Json.read source).bind (ofJson Json.nestingLimit)

end Manifest

end Gateware
