import Gateware.Action
import Gateware.Compile.Context

/-!
# Choosing the channel

A request may name the channel to the device, which then has to be one of the device.  Otherwise the
device's preferred channel is taken.
-/

namespace Gateware

/-- Why no channel could be chosen. -/
inductive ChannelError where
  | noChannel (device : String)
  | unsupported (device channel : String) (supported : List String)
deriving Repr, DecidableEq

/-- The message of a channel error. -/
def ChannelError.message : ChannelError → String
  | noChannel device => s!"device '{device}' has no communication channel"
  | unsupported device channel supported =>
    let listed := String.intercalate ", " supported
    s!"device '{device}' does not support channel '{channel}' (supported: {listed})"

/-- The channel for a request on a device. -/
def chooseChannel (manifest : Manifest) : Option String → Except ChannelError String
  | some channel =>
    if manifest.supportsChannel channel then .ok channel
    else .error (.unsupported manifest.name channel manifest.channels)
  | none =>
    match manifest.defaultChannel with
    | some channel => .ok channel
    | none => .error (.noChannel manifest.name)

/-- Chooses the channel of a compilation. -/
def Context.configureChannel : Action Context ChannelError Unit := do
  let c ← .get
  let channel ← .lift (.ofExcept (chooseChannel c.device.manifest c.request.channel))
  .note .channel .info s!"{c.device.name}: using channel '{channel}'"
  .modify fun c => { c with channel := some channel }

end Gateware
