import Gateware.Journal

/-!
# Actions

An `Action` works on a state and changes it in its place, and it notes down what it does.  It may
fail on the way.  What it has changed by then stays changed: what a failed action leaves behind is a
matter of where in it the changes stand.

Nobody looks at the state between two pieces of an action, so an action that succeeds has come from
one state to another.  `Action.outcome` says to which, and says nothing about actions that fail.
-/

namespace Gateware

/-- A computation that changes a state in its place.  It leaves a state behind whether it succeeds
or fails. -/
def Action (σ ε α : Type) := σ → σ × Traced ε α

namespace Action

variable {σ κ ε ε' α β : Type}

/-- A value, and nothing changed. -/
protected def pure (a : α) : Action σ ε α := fun s => (s, pure a)

/-- Carries out an action and, if it succeeded, the next one on what it left behind. -/
protected def bind (x : Action σ ε α) (f : α → Action σ ε β) : Action σ ε β := fun s =>
  let (s, first) := x s
  match first.result with
  | .ok a =>
    let (s, second) := f a s
    (s, ⟨first.notes ++ second.notes, second.result⟩)
  | .error e => (s, ⟨first.notes, .error e⟩)

instance : Monad (Action σ ε) where
  pure := Action.pure
  bind := Action.bind

/-- Looks at the state. -/
def get : Action σ ε σ := fun s => (s, pure s)

/-- Changes the state. -/
def modify (f : σ → σ) : Action σ ε Unit := fun s => (f s, pure ())

/-- A computation beside the state. -/
def lift (x : Traced ε α) : Action σ ε α := fun s => (s, x)

/-- Notes a remark. -/
def note (origin : Origin) (severity : Severity) (text : String) : Action σ ε Unit :=
  lift (.note origin severity text)

/-- The same action with its errors wrapped. -/
def mapError (f : ε → ε') (x : Action σ ε α) : Action σ ε' α := fun s =>
  let done := x s
  (done.1, done.2.mapError f)

/-- An action on a part of the state. -/
def within (part : σ → κ) (replace : κ → σ → σ) (x : Action κ ε α) : Action σ ε α := fun s =>
  let done := x (part s)
  (replace done.1 s, done.2)

/-- What an action makes of a state, if it succeeds. -/
def outcome (x : Action σ ε Unit) (s : σ) : Traced ε σ :=
  let done := x s
  ⟨done.2.notes, done.2.result.map fun _ => done.1⟩

/-! ### From state to state -/

@[simp] theorem outcome_get_bind (f : σ → Action σ ε Unit) (s : σ) :
    (get >>= f).outcome s = (f s).outcome s := rfl

@[simp] theorem result_lift_bind (x : Traced ε α) (f : α → Action σ ε Unit) (s : σ) :
    ((lift x >>= f).outcome s).result = x.result.bind fun a => ((f a).outcome s).result := by
  obtain ⟨notes, e | a⟩ := x <;> rfl

@[simp] theorem result_note_bind (origin : Origin) (severity : Severity) (text : String)
    (f : Unit → Action σ ε Unit) (s : σ) :
    ((note origin severity text >>= f).outcome s).result = ((f ()).outcome s).result := rfl

@[simp] theorem outcome_modify_bind (g : σ → σ) (f : Unit → Action σ ε Unit) (s : σ) :
    (modify g >>= f).outcome s = (f ()).outcome (g s) := rfl

@[simp] theorem result_modify (g : σ → σ) (s : σ) :
    ((modify g : Action σ ε Unit).outcome s).result = .ok (g s) := rfl

end Action

end Gateware
