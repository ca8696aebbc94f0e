import Gateware.Compile.Steps
import Gateware.Device.Registry

/-!
# The compiler

A compiler has a registry of devices and a pipeline of steps.  Before any step runs, the assemblies
of the program, the device and its memory settings are checked, in this order.  A result is handed
out only if the pipeline ran to its end, nobody cancelled it, and every part of the result is there.
-/

namespace Gateware

/-- The result of a compilation. -/
structure Representation where
  /-- The files of the assemblies. -/
  assemblies : List String
  description : Description
  implementation : Artifact
  manifest : Manifest
  memory : MemorySettings
  layout : Option MemoryLayout
  channel : Option String
  costs : List MemberCost

/-- How a compilation ended. -/
inductive CompileOutcome where
  | completed (representation : Representation) (failures : List (StepFailure StepError))
  | cancelled

/-- Why a compilation failed. -/
inductive CompileError where
  | assembly (error : Program.AssemblyError)
  /-- No step has made a part of the result. -/
  | incomplete (missing : String)
  | programUnreadable (path : String) (error : FileError)
  | programMalformed
  | device (error : DeviceError)
  | request (error : RequestError)
  | pipeline (error : PipelineError StepError)

/-- The message of a compile error. -/
def CompileError.message : CompileError → String
  | assembly error => error.message
  | incomplete missing =>
    s!"compilation finished without {missing}; no registered step produced it"
  | programUnreadable path error => s!"failed to read program '{path}': {error.message}"
  | programMalformed => "invalid program: not a program"
  | device error => error.message
  | request error => error.message
  | pipeline error => error.message StepError.message

/-- The result that a context holds after all steps. -/
def Representation.ofContext (memory : MemorySettings) (c : Context) :
    Except CompileError Representation :=
  match c.program.assemblyPaths with
  | .error e => .error (.assembly e)
  | .ok assemblies =>
    match c.description with
    | none => .error (.incomplete "a hardware description")
    | some description =>
      match c.implementation with
      | none => .error (.incomplete "an implementation artifact")
      | some implementation => .ok
        { assemblies, description, implementation
          manifest := c.device.manifest
          memory := memory
          layout := c.layout
          channel := c.channel
          costs := c.costs }

/-- A registry and the steps of a compilation. -/
structure Compiler (τ : Type) where
  registry : Registry
  pipeline : Pipeline MemorySettings (Workspace τ) StepError

/-- All that a compilation leaves behind. -/
structure Compilation (τ : Type) where
  notes : List Note
  /-- Whether the compilation has been cancelled. -/
  cancelled : Bool
  files : FileTree
  extra : τ
  result : Except CompileError CompileOutcome

namespace Compiler

variable {τ : Type}

/-- The steps that every compiler has, in order of registration. -/
def ownSteps : List (CompileStep τ) :=
  [CompileStep.channel, CompileStep.generation, CompileStep.artifact]

/-- A compiler without added steps. -/
def new (registry : Registry) (policy : FailurePolicy) : Compiler τ :=
  ⟨registry, { steps := orderByPriority Step.priority ownSteps, policy }⟩

/-- What is noted when a compiler is made. -/
def newNotes : List Note := (ownSteps : List (CompileStep Unit)).map Pipeline.registration

/-- Adds a step. -/
def addStep (c : Compiler τ) (step : CompileStep τ) : Except CompileError (Compiler τ) :=
  match c.pipeline.register step with
  | .ok pipeline => .ok { c with pipeline }
  | .error e => .error (.pipeline e)

/-- Finds the device and its memory settings, once the assemblies have been checked. -/
def prepare (c : Compiler τ) (program : Program) (request : Request) :
    Traced CompileError (Device × MemorySettings) := do
  let assemblies ← (Traced.ofExcept program.assemblyPaths).mapError .assembly
  let device ← (c.registry.find request.device).mapError .device
  let memory ← (c.registry.memoryFor request).mapError .device
  .note .compiler .info (s!"compiling {program.members.length} members from {assemblies.length} " ++
    s!"assemblies for {request.device}")
  pure (device, memory)

/-- Takes stock after the pipeline has run. -/
def conclude (memory : MemorySettings) (s : Session (Workspace τ)) :
    Except (PipelineError StepError) (RunOutcome StepError) →
    Session (Workspace τ) × Except CompileError CompileOutcome
  | .error e => (s, .error (.pipeline e))
  | .ok (.cancelled executed) =>
    (s.note .compiler .warning s!"compilation cancelled after {executed.length} steps",
      .ok .cancelled)
  | .ok (.completed report) =>
    if s.cancelled then
      (s.note .compiler .warning "compilation cancelled after the last step; discarding results",
        .ok .cancelled)
    else match Representation.ofContext memory s.context.context with
      | .error e => (s, .error e)
      | .ok r => (s.note .compiler .info s!"compiled {r.implementation.path} for {r.manifest.name}",
          .ok (.completed r report.failures))

/-- Compiles a program for a request. -/
def compile (c : Compiler τ) (program : Program) (request : Request) (cancelled : Bool)
    (files : FileTree) (extra : τ) : Compilation τ :=
  let prepared := c.prepare program request
  match prepared.result with
  | .error e => ⟨prepared.notes, cancelled, files, extra, .error e⟩
  | .ok (device, memory) =>
    let context : Context := { program, request, device }
    let start : Session (Workspace τ) := ⟨⟨context, files, extra⟩, cancelled, prepared.notes⟩
    let (s, outcome) := c.pipeline.run StepError.message memory start
    let (s, result) := conclude memory s outcome
    ⟨s.notes, s.cancelled, s.context.files, s.context.extra, result⟩

end Compiler

end Gateware
