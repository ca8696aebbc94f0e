import Gateware.Settings.Standard
import Gateware.Text.Blank
import Gateware.Toml.Reader
import Gateware.Vhdl.Identifier

/-!
# Requests

A request says which device to compile for and what to call the result.  It is written as a TOML
document with a `hardware` section and, under `custom`, settings for other parts of the compiler.

`Request.parse` reads a document and checks it: the device must be named, and a channel or the name
of the top-level unit must make sense where they are given, in this order.
-/

namespace Gateware

/-- What to generate, and for which device. -/
structure Request where
  /-- The exact name of the device. -/
  device : String
  /-- The channel to use; the device's preferred one if none is given. -/
  channel : Option String := none
  /-- The directory for the artifact. -/
  outputDir : String := "build"
  /-- The name of the top-level unit. -/
  top : String := "kiln_hardware"
  /-- The settings of other parts of the compiler. -/
  settings : Settings := .empty

/-- Why a request could not be had. -/
inductive RequestError where
  /-- The file could not be read. -/
  | unreadable (reason : String)
  /-- The document is not well formed, or a section has the wrong form. -/
  | malformed
  /-- A required field is blank. -/
  | missing (field : String)
  /-- A field makes no sense. -/
  | invalid (reason : String)
deriving Repr, DecidableEq

/-- The message of a request error. -/
def RequestError.message : RequestError → String
  | unreadable reason => s!"failed to read configuration: {reason}"
  | malformed => "failed to parse configuration: not a request"
  | missing field => s!"missing required field: {field}"
  | invalid reason => s!"validation error: {reason}"

namespace Request

/-- The name of the file that holds the request of a project. -/
def fileName : String := "kiln.toml"

/-- The `hardware` section, with the settings beside it. -/
def ofSection (settings : List (String × Toml)) (hardware : Toml) : Option Request :=
  match hardware.record true [["device"], ["channel"], ["output_dir"], ["top"]] with
  | some [device, channel, outputDir, top] => do
    let device ← device.bind Toml.asText
    let channel ← Toml.optional Toml.asText channel
    let outputDir ← Toml.orElse "build" Toml.asText outputDir
    let top ← Toml.orElse "kiln_hardware" Toml.asText top
    some ⟨device, channel, outputDir, top, .ofRaw settings⟩
  | _ => none

/-- The request in a document, not yet checked. -/
def ofDocument (entries : List (String × Toml)) : Option Request := do
  let hardware ← entries.lookup "hardware"
  match entries.lookup "custom" with
  | none => ofSection [] hardware
  | some (.table settings) => do
    let settings ← Toml.settleEntries settings
    ofSection settings hardware
  | some _ => none

/-- Checks the fields of a request that were given. -/
def check (r : Request) : Except RequestError Request :=
  if Text.isBlankText r.device then .error (.missing "hardware.device")
  else if r.channel.any Text.isBlankText then .error (.invalid "hardware.channel must not be empty")
  else if !Vhdl.isBasicName r.top then
    .error (.invalid s!"hardware.top '{r.top}' is not a valid HDL identifier")
  else .ok r

/-- The request that a document describes. -/
def parse (source : String) : Except RequestError Request :=
  match (Toml.read source).bind ofDocument with
  | none => .error .malformed
  | some r => r.check

end Request

end Gateware
