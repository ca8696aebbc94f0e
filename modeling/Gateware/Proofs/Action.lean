import Gateware.Action
import Gateware.Proofs.Results

/-!
# What actions leave behind

An action that fails has made all the changes that come before the point of failure.  So it leaves
no trace only if there are none: it fails quietly (`Action.FailsQuietly`) if it is put together of
parts that change nothing (`Action.Keeps`), followed by parts that cannot fail (`Action.Succeeds`).
What counts as a change is a matter of the `view` that one takes of the state.
-/

namespace Gateware.Action

variable {σ κ ε α β : Type}

/-- The action leaves what `view` shows as it is, whether it succeeds or fails. -/
def Keeps (view : σ → κ) (x : Action σ ε α) : Prop := ∀ s, view (x s).1 = view s

/-- The action does not fail. -/
def Succeeds (x : Action σ ε α) : Prop := ∀ s, ∃ a, (x s).2.result = .ok a

/-- The action leaves what `view` shows as it was if it fails. -/
def FailsQuietly (view : σ → κ) (x : Action σ ε α) : Prop :=
  ∀ s e, (x s).2.result = .error e → view (x s).1 = view s

/-- An action in two parts fails in the first, or ends as the second does on what the first has left
behind. -/
lemma bind_cases {P : σ → Except ε β → Prop} {x : Action σ ε α} {f : α → Action σ ε β} {s : σ}
    (herror : ∀ e, (x s).2.result = .error e → P (x s).1 (.error e))
    (hok : ∀ a, (x s).2.result = .ok a → P (f a (x s).1).1 (f a (x s).1).2.result) :
    P ((x >>= f) s).1 ((x >>= f) s).2.result := by
  show P (Action.bind x f s).1 (Action.bind x f s).2.result
  simp only [Action.bind]
  cases hresult : (x s).2.result with
  | error e => exact herror e hresult
  | ok a => exact hok a hresult

section

variable {view : σ → κ}

lemma keeps_get : (get : Action σ ε σ).Keeps view := fun _ => rfl

lemma keeps_lift {x : Traced ε α} : (lift x : Action σ ε α).Keeps view := fun _ => rfl

lemma succeeds_modify {f : σ → σ} : (modify f : Action σ ε Unit).Succeeds := fun _ => ⟨(), rfl⟩

lemma succeeds_note {origin : Origin} {severity : Severity} {text : String} :
    (note origin severity text : Action σ ε Unit).Succeeds := fun _ => ⟨(), rfl⟩

variable {x : Action σ ε α} {f : α → Action σ ε β}

lemma Keeps.failsQuietly (hx : x.Keeps view) : x.FailsQuietly view := fun s _ _ => hx s

lemma Succeeds.failsQuietly (hx : x.Succeeds) : x.FailsQuietly view := by
  intro s e he
  obtain ⟨a, ha⟩ := hx s
  rw [ha] at he
  cases he

lemma Succeeds.bind (hx : x.Succeeds) (hf : ∀ a, (f a).Succeeds) : (x >>= f).Succeeds := by
  intro s
  refine bind_cases (P := fun _ result => ∃ b, result = .ok b) (fun e he => ?_) fun a _ => hf a _
  obtain ⟨a, ha⟩ := hx s
  rw [ha] at he
  cases he

/-- What follows a part that changes nothing may fail as quietly as that part. -/
lemma Keeps.bind_failsQuietly (hx : x.Keeps view) (hf : ∀ a, (f a).FailsQuietly view) :
    (x >>= f).FailsQuietly view := by
  intro s
  refine bind_cases (P := fun t result => ∀ e, result = .error e → view t = view s)
    (fun _ _ _ _ => hx s) fun a _ e he => ?_
  exact (hf a _ e he).trans (hx s)

end

section

variable {x : Action σ ε Unit} {s t : σ}

lemma outcome_eq_ok :
    (x.outcome s).result = .ok t ↔ (x s).2.result = .ok () ∧ (x s).1 = t := by
  show ((x s).2.result.map fun _ => (x s).1) = .ok t ↔ _
  rw [map_eq_ok]
  constructor
  · rintro ⟨_, hresult, hstate⟩
    exact ⟨hresult, hstate⟩
  · rintro ⟨hresult, hstate⟩
    exact ⟨(), hresult, hstate⟩

lemma outcome_eq_error {e : ε} : (x.outcome s).result = .error e ↔ (x s).2.result = .error e :=
  map_eq_error

end

end Gateware.Action
