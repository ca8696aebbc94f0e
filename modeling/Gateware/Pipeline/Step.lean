import Gateware.Action

/-!
# Steps of a pipeline

A step works on a context that all steps share, and may cancel the whole run.  Beside the context
there is an environment that steps can look at and not change.

A step is first called, which may already do all its work.  What remains is an `Activity`, which is
then carried on piece by piece.  Between two pieces the step is suspended, and only there, and
before the first piece, does a cancellation take effect.
-/

namespace Gateware

/-- What the steps of a run share. -/
structure Session (σ : Type) where
  context : σ
  /-- Whether the run has been cancelled. -/
  cancelled : Bool := false
  notes : List Note := []

namespace Session

variable {σ : Type}

/-- Notes a remark. -/
def note (s : Session σ) (origin : Origin) (severity : Severity) (text : String) : Session σ :=
  { s with notes := s.notes ++ [.line ⟨origin, severity, text⟩] }

/-- Cancels the run. -/
def cancel (s : Session σ) : Session σ := { s with cancelled := true }

/-- Carries out an action on the context, which stays as the action leaves it, also if it fails. -/
def perform {ε : Type} (s : Session σ) (action : Action σ ε Unit) : Session σ × Except ε Unit :=
  let done := action s.context
  ({ s with context := done.1, notes := s.notes ++ done.2.notes }, done.2.result)

end Session

/-- What is left to do of a step that has been called. -/
inductive Activity (σ ε : Type) where
  /-- Nothing: the result is there. -/
  | finished (result : Except ε Unit)
  /-- Waiting for something that happens only if the run is cancelled. -/
  | waiting
  /-- A piece of work.  It ends with a result, or else the step is suspended and something is left
  to do. -/
  | working (work : Session σ → Session σ × Option (Except ε Unit))
      (next : Session σ → Activity σ ε)

/-- A step of a pipeline. -/
structure Step (ρ σ ε : Type) where
  name : String
  /-- Steps of higher priority run earlier. -/
  priority : Float
  /-- Calls the step. -/
  call : ρ → Session σ → Session σ × Activity σ ε

namespace Step

variable {ρ σ ε : Type}

/-- A step that does all its work when it is called. -/
def immediate (name : String) (priority : Float)
    (run : ρ → Session σ → Session σ × Except ε Unit) : Step ρ σ ε where
  name := name
  priority := priority
  call env s :=
    let (s, result) := run env s
    (s, .finished result)

/-- A step that does all its work in one piece after it has been called. -/
def deferred (name : String) (priority : Float)
    (run : ρ → Session σ → Session σ × Except ε Unit) : Step ρ σ ε where
  name := name
  priority := priority
  call env s := (s, .working (fun s => let (s, result) := run env s; (s, some result))
    fun _ => .waiting)

end Step

end Gateware
