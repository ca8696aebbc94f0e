import Gateware.Number.Decimal
import Gateware.Pipeline.Order
import Gateware.Pipeline.Step

/-!
# Running a pipeline

A pipeline keeps its steps in the order in which they run.  A run calls them one after the other on
the same context.  It ends early when the run is cancelled, and when a step fails, unless the policy
is to go on.

* `Pipeline.register` — adds a step, if its priority can be ordered.
* `Activity.drive` — carries a called step on until it ends or is interrupted.
* `Pipeline.run` — runs all steps.
-/

namespace Gateware

/-- What to do when a step fails. -/
inductive FailurePolicy where
  /-- Stop at once. -/
  | abort
  /-- Record the failure and go on with the next step. -/
  | proceed
deriving Repr, DecidableEq

/-- A step that failed. -/
structure StepFailure (ε : Type) where
  step : String
  priority : Float
  error : ε

/-- What happened in a run that was not cancelled. -/
structure RunReport (ε : Type) where
  /-- The steps that succeeded, in order. -/
  executed : List String := []
  /-- The steps that failed, in order. -/
  failures : List (StepFailure ε) := []

/-- How a run ended. -/
inductive RunOutcome (ε : Type) where
  /-- Every step was called. -/
  | completed (report : RunReport ε)
  /-- The run was cancelled after these steps had succeeded. -/
  | cancelled (executed : List String)

/-- Why a pipeline refused a step or stopped. -/
inductive PipelineError (ε : Type) where
  | stepFailed (failure : StepFailure ε)
  | invalidPriority (step : String) (priority : Float)

/-- The message of a pipeline error. -/
def PipelineError.message {ε : Type} (describe : ε → String) : PipelineError ε → String
  | stepFailed f =>
    s!"pipeline step '{f.step}' (priority {plainText f.priority}) failed: {describe f.error}"
  | invalidPriority step priority =>
    s!"pipeline step '{step}' has an unorderable priority {plainText priority}"

/-- How a called step ended. -/
inductive StepEnd (ε : Type) where
  | finished (result : Except ε Unit)
  | interrupted

/-- Carries a called step on.  Whenever it is about to work, a cancellation interrupts it; one that
waits for a cancellation gets one from outside. -/
def Activity.drive {σ ε : Type} : Activity σ ε → Session σ → Session σ × StepEnd ε
  | finished result, s => if s.cancelled then (s, .interrupted) else (s, .finished result)
  | waiting, s => (s.cancel, .interrupted)
  | working work next, s =>
    if s.cancelled then (s, .interrupted)
    else match work s with
      | (s, some result) => (s, .finished result)
      | (s, none) => drive (next s) s

/-- Steps in the order in which they run, and what to do when one fails. -/
structure Pipeline (ρ σ ε : Type) where
  steps : List (Step ρ σ ε) := []
  policy : FailurePolicy := .abort

namespace Pipeline

variable {ρ σ ε : Type}

/-- Adds a step, unless its priority is no number. -/
def register (p : Pipeline ρ σ ε) (step : Step ρ σ ε) :
    Except (PipelineError ε) (Pipeline ρ σ ε) :=
  if step.priority.isNaN then .error (.invalidPriority step.name step.priority)
  else .ok { p with steps := orderByPriority Step.priority (p.steps ++ [step]) }

/-- What is noted when a step has been added. -/
def registration (step : Step ρ σ ε) : Note :=
  .line ⟨.pipeline, .debug,
    s!"registered pipeline step '{step.name}' (priority {plainText step.priority})"⟩

/-- The names of the steps, in the order in which they run. -/
def order (p : Pipeline ρ σ ε) : List String := p.steps.map (·.name)

/-- Runs the remaining steps, given what has happened so far. -/
def runSteps (describe : ε → String) (policy : FailurePolicy) (env : ρ) (report : RunReport ε) :
    List (Step ρ σ ε) → Session σ → Session σ × Except (PipelineError ε) (RunOutcome ε)
  | [], s => (s, .ok (.completed report))
  | step :: rest, s =>
    if s.cancelled then
      (s.note .pipeline .info s!"pipeline cancelled before step '{step.name}'",
        .ok (.cancelled report.executed))
    else
      let s := s.note .pipeline .debug
        s!"running step '{step.name}' (priority {plainText step.priority})"
      let (s, activity) := step.call env s
      match activity.drive s with
      | (s, .interrupted) =>
        (s.note .pipeline .info s!"pipeline cancelled during step '{step.name}'",
          .ok (.cancelled report.executed))
      | (s, .finished (.ok ())) =>
        runSteps describe policy env { report with executed := report.executed ++ [step.name] } rest
          (s.note .pipeline .debug s!"step '{step.name}' finished")
      | (s, .finished (.error e)) =>
        let failure : StepFailure ε := ⟨step.name, step.priority, e⟩
        match policy with
        | .abort =>
          (s.note .pipeline .error s!"step '{step.name}' failed: {describe e}",
            .error (.stepFailed failure))
        | .proceed =>
          runSteps describe policy env { report with failures := report.failures ++ [failure] } rest
            (s.note .pipeline .warning s!"step '{step.name}' failed, continuing: {describe e}")

/-- Runs all steps. -/
def run (describe : ε → String) (p : Pipeline ρ σ ε) (env : ρ) (s : Session σ) :
    Session σ × Except (PipelineError ε) (RunOutcome ε) :=
  runSteps describe p.policy env {} p.steps s

end Pipeline

end Gateware
