/-!
# The journal

While it works, the compiler notes down what it does.  Notes never influence a result, so they are
kept beside it: a `Traced` computation is a list of notes together with a value or an error, and
`Traced.result` forgets the notes.  Forgetting commutes with `pure` and `>>=`, so every statement
about results can be made, and proved, as if nothing had been noted.

The delay report of a device is read when it is first needed and kept.  Consulting it is noted each
time (`Note.consulted`), and the journal shows only the first consultation of each device.
-/

namespace Gateware

/-- How much a note matters. -/
inductive Severity where
  | error
  | warning
  | info
  | debug
deriving Repr, DecidableEq

/-- How far down the scale of severities one stands. -/
def Severity.rank : Severity → Nat
  | error => 0
  | warning => 1
  | info => 2
  | debug => 3

/-- The label in front of a note. -/
def Severity.label : Severity → String
  | error => "ERROR"
  | warning => "WARN"
  | info => "INFO"
  | debug => "DEBUG"

/-- The part of the compiler that makes a note. -/
inductive Origin where
  | compiler
  | channel
  | generation
  | artifact
  | pipeline
  | registry
  | memory
  /-- The reading of delay reports. -/
  | report
  | cost
deriving Repr, DecidableEq

/-- The name under which a part of the compiler makes its notes. -/
def Origin.name : Origin → String
  | compiler => "kiln_core::compiler"
  | channel => "kiln_core::steps::channel"
  | generation => "kiln_core::steps::transform"
  | artifact => "kiln_core::steps::build"
  | pipeline => "kiln_pipeline::runner"
  | registry => "kiln_device::registry"
  | memory => "kiln_device::memory"
  | report => "kiln_timing::lazy"
  | cost => "kiln_timing::cost"

/-- A text, with how much it matters and where it comes from. -/
structure Remark where
  origin : Origin
  severity : Severity
  text : String
deriving Repr, DecidableEq

/-- Something worth writing down. -/
inductive Note where
  /-- A remark. -/
  | line (remark : Remark)
  /-- The delay report of a device was consulted; the remark describes how reading it went. -/
  | consulted (device : String) (remark : Remark)
deriving Repr, DecidableEq

namespace Journal

/-- A line of the journal. -/
def entry (r : Remark) : String := s!"{r.severity.label} {r.text}"

/-- What a journal shows, given the devices whose reports have been read already. -/
def shownAfter (read : List String) : List Note → List Remark
  | [] => []
  | .line remark :: notes => remark :: shownAfter read notes
  | .consulted device remark :: notes =>
    if read.contains device then shownAfter read notes
    else remark :: shownAfter (device :: read) notes

/-- What a journal shows that starts with no report read. -/
def shown (notes : List Note) : List Remark := shownAfter [] notes

/-- The lines of a journal. -/
def lines (notes : List Note) : List String := (shown notes).map entry

end Journal

/-! ## Computations with notes -/

/-- A computation that may fail and notes down what it does on the way, also when it fails. -/
structure Traced (ε α : Type) where
  notes : List Note
  result : Except ε α

namespace Traced

variable {ε ε' α β : Type}

/-- A value, and nothing noted. -/
protected def pure (a : α) : Traced ε α := ⟨[], .ok a⟩

/-- Runs a computation and, if it succeeded, the next one. -/
protected def bind (x : Traced ε α) (f : α → Traced ε β) : Traced ε β :=
  match x.result with
  | .ok a => ⟨x.notes ++ (f a).notes, (f a).result⟩
  | .error e => ⟨x.notes, .error e⟩

instance : Monad (Traced ε) where
  pure := Traced.pure
  bind := Traced.bind

/-- Fails. -/
def fail (e : ε) : Traced ε α := ⟨[], .error e⟩

/-- Notes a remark. -/
def note (origin : Origin) (severity : Severity) (text : String) : Traced ε Unit :=
  ⟨[.line ⟨origin, severity, text⟩], .ok ()⟩

/-- A computation that notes nothing. -/
def ofExcept (x : Except ε α) : Traced ε α := ⟨[], x⟩

/-- The same computation with its errors wrapped. -/
def mapError (f : ε → ε') (x : Traced ε α) : Traced ε' α :=
  ⟨x.notes, match x.result with
    | .ok a => .ok a
    | .error e => .error (f e)⟩

/-! ### Forgetting the notes -/

@[simp] theorem result_pure (a : α) : (pure a : Traced ε α).result = .ok a := rfl

@[simp] theorem result_bind (x : Traced ε α) (f : α → Traced ε β) :
    (x >>= f).result = x.result.bind fun a => (f a).result := by
  show (Traced.bind x f).result = _
  unfold Traced.bind
  cases x.result <;> rfl

@[simp] theorem result_fail (e : ε) : (fail e : Traced ε α).result = .error e := rfl

@[simp] theorem result_note (origin : Origin) (severity : Severity) (text : String) :
    (note origin severity text : Traced ε Unit).result = .ok () := rfl

@[simp] theorem result_ofExcept (x : Except ε α) : (ofExcept x).result = x := rfl

@[simp] theorem result_mapError (f : ε → ε') (x : Traced ε α) :
    (x.mapError f).result = x.result.mapError f := by
  unfold mapError
  cases x.result <;> rfl

end Traced

end Gateware
