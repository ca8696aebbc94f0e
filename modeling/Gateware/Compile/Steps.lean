import Gateware.Compile.Artifact
import Gateware.Compile.Channel
import Gateware.Compile.Generation
import Gateware.Pipeline.Run

/-!
# The steps of a compilation

A compilation has three steps of its own: the channel is chosen, the description is generated, and
the artifact is written.  Others may be added before, between and after them.

All steps work on a `Workspace`, the context together with the files and whatever the added steps
keep for themselves.  They change it in its place, and can look at the memory settings and not
change them.
-/

namespace Gateware

/-- What the steps of a compilation can change. -/
structure Workspace (τ : Type) where
  context : Context
  files : FileTree
  /-- What added steps keep for themselves. -/
  extra : τ

/-- The part of a workspace that results are made from. -/
def Workspace.stock {τ : Type} (w : Workspace τ) : Context × FileTree := (w.context, w.files)

/-- Why a step of a compilation failed. -/
inductive StepError where
  | channel (error : ChannelError)
  | generation (error : GenerationError)
  | artifact (error : ArtifactError)
  /-- The error of an added step. -/
  | other (message : String)

/-- The message of a step error. -/
def StepError.message : StepError → String
  | channel error => error.message
  | generation error => error.message
  | artifact error => error.message
  | other message => message

/-- A step of a compilation. -/
abbrev CompileStep (τ : Type) := Step MemorySettings (Workspace τ) StepError

namespace CompileStep

variable {τ : Type}

/-- Carries out an action on the context of a workspace. -/
def onContext {ε : Type} (action : Action Context ε Unit) : Action (Workspace τ) ε Unit :=
  action.within Workspace.context fun context w => { w with context }

/-- Carries out an action on the context and the files of a workspace. -/
def onStock {ε : Type} (action : Action (Context × FileTree) ε Unit) :
    Action (Workspace τ) ε Unit :=
  action.within Workspace.stock fun k w => { w with context := k.1, files := k.2 }

/-- Chooses the channel. -/
def channel : CompileStep τ :=
  .immediate "channel-configurator" 300 fun _ s =>
    s.perform ((onContext Context.configureChannel).mapError .channel)

/-- Generates the description. -/
def generation : CompileStep τ :=
  .immediate "hardware-transformer" 200 fun memory s =>
    s.perform ((onContext (Context.describe memory)).mapError .generation)

/-- Writes the artifact. -/
def build (s : Session (Workspace τ)) : Session (Workspace τ) × Except StepError Unit :=
  s.perform ((onStock (Context.writeArtifact s.cancelled)).mapError .artifact)

/-- Writes the artifact, once the step is under way. -/
def artifact : CompileStep τ := .deferred "vhdl-build-provider" 100 fun _ s => build s

end CompileStep

end Gateware
