import Gateware.Proofs.Compile.Inversion
import Gateware.Proofs.Generation.Inversion

/-!
# What a completed compilation stands for

Added steps may do to the workspace what they like: change the program and its assemblies, drop the
description, put an artifact in place that nobody wrote, fail, or cancel the run.  A compilation
that completes nevertheless hands out a result that can be relied on (`Reliable`), since stock is
taken after the last step and not before: the run was not cancelled, every step was called and is
accounted for, and each part of the result is one of the final context, whose assemblies are all
files.  The memory settings are those of the request, which no step can change.

Inputs that are not fit end a compilation before any step is called.  That no step is called is said
by letting the pipeline vary: the compilation is the same, to the last note, for all pipelines.
-/

namespace Gateware

variable {τ : Type}

/-- A result and the failures beside it can be relied on, given the visits that the pipeline made
between two sessions. -/
structure Reliable (c : Compiler τ) (request : Request) (start : Session (Workspace τ))
    (visits : List (Visit MemorySettings (Workspace τ) StepError))
    (final : Session (Workspace τ)) (r : Representation)
    (failures : List (StepFailure StepError)) : Prop where
  /-- The run has not been cancelled. -/
  uncancelled : final.cancelled = false
  /-- Every step was called once, in order. -/
  order : visits.map (·.step) = c.pipeline.steps
  /-- Each was called on what the earlier ones left behind. -/
  visited : Visited r.memory start visits final
  /-- Each gave a result. -/
  finished : ∀ v ∈ visits, v.hasFinished = true
  /-- The failures are those of the steps that failed, in order. -/
  failed : failures = failuresIn visits
  /-- There are none if the policy is to stop at the first. -/
  abort : c.pipeline.policy = .abort → failures = []
  /-- There is an assembly. -/
  nonempty : r.assemblies ≠ []
  /-- The assemblies of the final program are the listed files, with nothing else among them. -/
  assemblies : final.context.context.program.assemblies = r.assemblies.map .file
  description : final.context.context.description = some r.description
  implementation : final.context.context.implementation = some r.implementation
  manifest : r.manifest = final.context.context.device.manifest
  layout : r.layout = final.context.context.layout
  channel : r.channel = final.context.context.channel
  costs : r.costs = final.context.context.costs
  /-- The memory settings are those of the request. -/
  memory : (c.registry.memoryFor request).result = .ok r.memory

lemma failuresIn_eq_nil {ρ σ ε : Type} {visits : List (Visit ρ σ ε)} :
    failuresIn visits = [] ↔ ∀ v ∈ visits, v.failure? = none := by
  rw [failuresIn, List.filterMap_eq_nil_iff]

lemma Runs.reliable {c : Compiler τ} {request : Request} {memory : MemorySettings}
    {start final : Session (Workspace τ)}
    {visits : List (Visit MemorySettings (Workspace τ) StepError)} {e : RunEnd StepError}
    {r : Representation} {failures : List (StepFailure StepError)}
    (h : Runs c.pipeline.policy memory c.pipeline.steps start visits final e)
    (hmemory : (c.registry.memoryFor request).result = .ok memory)
    (hresult : (Compiler.conclude memory final
      (e.answer ⟨executedIn visits, failuresIn visits⟩)).2 = .ok (.completed r failures)) :
    Reliable c request start visits final r failures := by
  obtain ⟨report, hanswer, huncancelled, hr, rfl⟩ := conclude_eq_completed.mp hresult
  obtain ⟨horder, hfinished, habort, rfl⟩ := (h.account.completed report).mp hanswer
  obtain ⟨paths, description, implementation, hpaths, hdescription, himplementation, rfl⟩ :=
    ofContext_eq_ok.mp hr
  obtain ⟨hnonempty, hassemblies⟩ := Program.assemblyPaths_eq_ok.mp hpaths
  exact
    { uncancelled := huncancelled
      order := horder
      visited := h.visited
      finished := hfinished
      failed := rfl
      abort := fun hpolicy => failuresIn_eq_nil.mpr (habort hpolicy)
      nonempty := hnonempty
      assemblies := hassemblies
      description := hdescription
      implementation := himplementation
      manifest := rfl
      layout := rfl
      channel := rfl
      costs := rfl
      memory := hmemory }

/-- **A compilation hands out only what can be relied on,** whatever its steps do; and for inputs
that are not fit it gives the first reason why, without calling a step. -/
theorem compile_reliable (c : Compiler τ) (program : Program) (request : Request)
    (cancelled : Bool) (files : FileTree) (extra : τ) :
    (∀ r failures,
      (c.compile program request cancelled files extra).result = .ok (.completed r failures) →
      ∃ device visits final,
        (c.registry.find request.device).result = .ok device ∧
        Reliable c request (startSession program request device cancelled files extra) visits final
          r failures ∧
        (c.compile program request cancelled files extra).cancelled = final.cancelled ∧
        (c.compile program request cancelled files extra).files = final.context.files ∧
        (c.compile program request cancelled files extra).extra = final.context.extra) ∧
    (∀ e, Unfit c.registry program request e →
      ∃ notes, ∀ pipeline, Compiler.compile ⟨c.registry, pipeline⟩ program request cancelled files
        extra = ⟨notes, cancelled, files, extra, .error e⟩) := by
  constructor
  · intro r failures hresult
    rcases hprepared : (c.prepare program request).result with e | ⟨device, memory⟩
    · rw [compile_of_unfit (prepare_eq_error.mp hprepared)] at hresult
      cases hresult
    · obtain ⟨-, hdevice, hmemory⟩ := prepare_eq_ok.mp hprepared
      obtain ⟨visits, final, e, notes, hruns, hcompile⟩ :=
        compile_runs hprepared cancelled files extra
      rw [hcompile] at hresult ⊢
      exact ⟨device, visits, final, hdevice, hruns.reliable hmemory hresult, rfl, rfl, rfl⟩
  · intro e h
    refine ⟨(c.prepare program request).notes, fun pipeline => ?_⟩
    exact compile_of_unfit (c := ⟨c.registry, pipeline⟩) h cancelled files extra

/-! ## A sample -/

/-- The sample program, in one file. -/
def Program.sample : Program := { Context.sample.program with assemblies := [.file "filter.dll"] }

/-- A step that looks on and fails. -/
def CompileStep.refuse : CompileStep Unit :=
  .immediate "refuse" 400 fun _ s => (s, .error (.other "no"))

/-- A compiler that goes on after failures.  One of its added steps moves the program to another
file late, the other one fails early. -/
def Compiler.meddled : Compiler Unit where
  registry := ⟨[.bench]⟩
  pipeline :=
    { steps := orderByPriority Step.priority (ownSteps ++
        [.immediate "move" 50 fun _ s =>
          ({ s with context.context.program.assemblies := [.file "moved.dll"] }, .ok ()),
         .refuse])
      policy := .proceed }

/-- The names of the failed steps and the assemblies, if a compilation completed. -/
def completedWith : Except CompileError CompileOutcome → Option (List String × List String)
  | .ok (.completed r failures) => some (failures.map (·.step), r.assemblies)
  | _ => none

lemma exists_of_completedWith {x : Except CompileError CompileOutcome} {names paths : List String}
    (h : completedWith x = some (names, paths)) :
    ∃ r failures, x = .ok (.completed r failures) ∧ failures.map (·.step) = names ∧
      r.assemblies = paths := by
  unfold completedWith at h
  split at h
  · cases h
    exact ⟨_, _, rfl, rfl, rfl⟩
  · cases h

/-- A compilation completes in spite of two failed steps, with the assembly that a step has put in
place; the same compiler refuses a program without assemblies before it looks for the device. -/
theorem compile_reliable_meddled :
    (∃ r failures visits final,
      (Compiler.meddled.compile .sample { device := "Bench" } false {} ()).result
        = .ok (.completed r failures) ∧
      failures.map (·.step) = ["refuse", "channel-configurator"] ∧
      r.assemblies = ["moved.dll"] ∧
      Reliable Compiler.meddled { device := "Bench" }
        (startSession .sample { device := "Bench" } .bench false {} ()) visits final r failures) ∧
    (Compiler.meddled.compile ⟨[], []⟩ { device := "None" } false {} ()).result
      = .error (.assembly .none) := by
  constructor
  · obtain ⟨r, failures, hresult, hnames, hpaths⟩ := exists_of_completedWith
      (show completedWith
          (Compiler.meddled.compile .sample { device := "Bench" } false {} ()).result
        = some (["refuse", "channel-configurator"], ["moved.dll"]) by decide +kernel)
    obtain ⟨device, visits, final, hdevice, hreliable, -⟩ :=
      (compile_reliable Compiler.meddled .sample { device := "Bench" } false {} ()).1 _ _ hresult
    have hbench : device = .bench := by
      cases hdevice
      rfl
    exact ⟨r, failures, visits, final, hresult, hnames, hpaths, hbench ▸ hreliable⟩
  · obtain ⟨notes, h⟩ := (compile_reliable Compiler.meddled ⟨[], []⟩ { device := "None" } false {}
      ()).2 _ (.empty rfl)
    exact congrArg Compilation.result (h Compiler.meddled.pipeline)

end Gateware
