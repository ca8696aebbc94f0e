import Gateware.Proofs.Pipeline.Interleaving
import Gateware.Proofs.Results

/-!
# Leaving out a step that fails

If a run goes on after failures, a failed step need not leave a trace.  Say that a step fails
quietly if it leaves the view as it was whenever it fails (`Step.FailsQuietly`).  When the other
steps act on the view alone, a run in which such a step fails does to the view what the run without
the step does, and every other step has the same result in both (`Runs.omit`).

The run is taken apart at the step in question: what comes before it is the same in both runs, and
what comes after it starts from the same view.
-/

namespace Gateware

variable {ρ σ ε κ κ' : Type}

/-- A step does not cancel the run, and leaves what `view` shows as it was if it fails. -/
def Step.FailsQuietly (view : σ → κ) (step : Step ρ σ ε) : Prop :=
  ∀ (env : ρ) (v : Visit ρ σ ε), v.step = step → v.Made env →
    v.after.cancelled = false ∧
      ∀ error, v.ended = .finished (.error error) →
        view v.after.context = view v.before.context

section

variable {view : σ → κ} {step : Step ρ σ ε} {effect : ρ → κ → κ × Except ε Unit}

lemma Step.ActsBy.failsQuietly (h : step.ActsBy view effect)
    (heffect : ∀ env k error, (effect env k).2 = .error error → (effect env k).1 = k) :
    step.FailsQuietly view := by
  intro env v hstep hv
  obtain ⟨hstays, hview, hend⟩ := h env v hstep hv
  refine ⟨hstays, fun error herror => ?_⟩
  rw [hend] at herror
  rw [hview, heffect _ _ error (StepEnd.finished.inj herror)]

/-- A step that acts on a view acts on less than that, if less is enough to work on. -/
lemma Step.ActsBy.less (h : step.ActsBy view effect) (less : κ → κ')
    {effect' : ρ → κ' → κ' × Except ε Unit}
    (heffect : ∀ env k, effect' env (less k) = (less (effect env k).1, (effect env k).2)) :
    step.ActsBy (fun c => less (view c)) effect' := by
  intro env v hstep hv
  obtain ⟨hstays, hview, hend⟩ := h env v hstep hv
  rw [heffect]
  exact ⟨hstays, congrArg less hview, hend⟩

end

/-! ## Taking runs apart -/

lemma Woven.eq_of_none {α : Type} {items all : List α} (h : Woven (fun _ => False) items all) :
    items = all := by
  induction h with
  | nil => rfl
  | kept _ ih => rw [ih]
  | strewn ha => exact ha.elim

lemma Woven.self {α : Type} {P : α → Prop} : ∀ items : List α, Woven P items items
  | [] => .nil
  | _ :: items => .kept (self items)

section

variable {env : ρ} {s t : Session σ} {visits : List (Visit ρ σ ε)} {e : RunEnd ε}
  {view : σ → κ}

/-- A run in which all steps act on a view, and which goes on after failures. -/
lemma Runs.played {steps : List (Step ρ σ ε)} {effects : List (ρ → κ → κ × Except ε Unit)}
    (hsteps : List.Forall₂ (Step.ActsBy view) steps effects)
    (h : Runs .proceed env steps s visits t e) (hs : s.cancelled = false) :
    e = .completed ∧ t.cancelled = false ∧
      view t.context = (play env effects (view s.context)).1 ∧
      visits.map (·.step) = steps ∧
      visits.map (·.ended) = (play env effects (view s.context)).2.map .finished := by
  obtain ⟨ht, hout⟩ := h.woven (P := fun _ => False) (fun _ hP => hP.elim) (.self steps) hsteps hs
  cases hout with
  | completed hfinal hworked hown hended =>
      have hvisits := hworked.eq_of_none
      subst hvisits
      exact ⟨rfl, ht, hfinal, hown, hended⟩
  | stopped hpolicy => cases hpolicy

/-- A run over steps that do not cancel it goes on to those after them. -/
lemma Runs.append_cases : ∀ {first rest : List (Step ρ σ ε)} {s : Session σ}
    {visits : List (Visit ρ σ ε)},
    (∀ step ∈ first, ∀ v : Visit ρ σ ε, v.step = step → v.Made env → v.after.cancelled = false) →
    Runs .proceed env (first ++ rest) s visits t e → s.cancelled = false →
    ∃ early late u, visits = early ++ late ∧ Runs .proceed env first s early u .completed ∧
      u.cancelled = false ∧ Runs .proceed env rest u late t e
  | [], rest, s, visits, _, h, hs => ⟨[], visits, s, rfl, .done (.refl s), hs, h⟩
  | step :: first, rest, s, visits, hstays, h, hs => by
      have hstep := hstays step List.mem_cons_self
      obtain ⟨v, rfl, hsame, hv, hcases⟩ := h.cons_cases hs hstep
      have hgoes := hstep v rfl hv
      rcases hcases with ⟨later, rfl, hrest⟩ | ⟨error, hpolicy, -⟩
      · obtain ⟨early, late, u, rfl, hfirst, hu, hlate⟩ := append_cases
          (fun step hmem => hstays step (List.mem_cons_of_mem _ hmem)) hrest hgoes
        refine ⟨v :: early, late, u, rfl, ?_, hu, hlate⟩
        cases hend : v.ended with
        | interrupted =>
            have hcancelled := hv.cancelled_of_interrupted hend
            rw [hgoes] at hcancelled
            contradiction
        | finished result =>
            cases result with
            | ok u => exact .succeeded hsame hv hend hfirst
            | error error => exact .passed hsame hv hend rfl hfirst
      · cases hpolicy

end

/-! ## Reports -/

/-- Reports tell how the steps ended, and nothing else of the visits. -/
lemma reports_eq : ∀ {visits visits' : List (Visit ρ σ ε)},
    visits.map (·.step) = visits'.map (·.step) → visits.map (·.ended) = visits'.map (·.ended) →
    executedIn visits = executedIn visits' ∧ failuresIn visits = failuresIn visits'
  | [], [], _, _ => ⟨rfl, rfl⟩
  | v :: visits, v' :: visits', hsteps, hended => by
      obtain ⟨hstep : v.step = v'.step, hsteps⟩ := List.cons.inj hsteps
      obtain ⟨hend : v.ended = v'.ended, hended⟩ := List.cons.inj hended
      obtain ⟨hexecuted, hfailures⟩ := reports_eq hsteps hended
      have hexecuted' : v.executed? = v'.executed? := by
        rw [Visit.executed?, Visit.executed?, hstep, hend]
      have hfailure' : v.failure? = v'.failure? := by
        rw [Visit.failure?, Visit.failure?, hstep, hend]
      unfold executedIn failuresIn at *
      simp only [List.filterMap_cons, hexecuted, hfailures, hexecuted', hfailure', and_self]

section

variable {env : ρ} {s t t' : Session σ} {visits visits' : List (Visit ρ σ ε)} {e e' : RunEnd ε}
  {view : σ → κ} {step : Step ρ σ ε} {before after : List (Step ρ σ ε)}

lemma exists_of_failure {v : Visit ρ σ ε} {f : StepFailure ε} (h : v.failure? = some f) :
    ∃ error, v.ended = .finished (.error error) := by
  unfold Visit.failure? at h
  split at h
  · exact ⟨_, ‹_›⟩
  · cases h

/-- **A step that fails quietly could as well be left out.**  The run without it ends with the same
view, and its report lacks nothing but the failure of that step. -/
theorem Runs.omit {v : Visit ρ σ ε} {f : StepFailure ε} (hstep : step.FailsQuietly view)
    (hothers : ∀ other ∈ before ++ after, ∃ effect, other.ActsBy view effect)
    (h : Runs .proceed env (before ++ step :: after) s visits t e)
    (h' : Runs .proceed env (before ++ after) s visits' t' e') (hs : s.cancelled = false)
    (hv : visits[before.length]? = some v) (hf : v.failure? = some f) :
    e = .completed ∧ e' = .completed ∧ view t.context = view t'.context ∧
      executedIn visits = executedIn visits' ∧
      ∃ failures failures', failuresIn visits = failures ++ f :: failures' ∧
        failuresIn visits' = failures ++ failures' := by
  obtain ⟨effects, heffects⟩ := (exists_forall₂ before).mpr fun other hother =>
    hothers other (List.mem_append_left after hother)
  obtain ⟨effects', heffects'⟩ := (exists_forall₂ after).mpr fun other hother =>
    hothers other (List.mem_append_right before hother)
  have hstays : ∀ other ∈ before, ∀ v : Visit ρ σ ε, v.step = other → v.Made env →
      v.after.cancelled = false := by
    intro other hother v hv hmade
    obtain ⟨effect, heffect⟩ := hothers other (List.mem_append_left after hother)
    exact (heffect env v hv hmade).1
  -- Both runs begin alike.
  obtain ⟨early, late, u, rfl, hearly, hu, hlate⟩ := h.append_cases hstays hs
  obtain ⟨early', late', u', rfl, hearly', hu', hlate'⟩ := h'.append_cases hstays hs
  obtain ⟨-, -, hview, hsteps, hended⟩ := hearly.played heffects hs
  obtain ⟨-, -, hview', hsteps', hended'⟩ := hearly'.played heffects hs
  obtain ⟨hexecuted, hfailures⟩ :=
    reports_eq (hsteps.trans hsteps'.symm) (hended.trans hended'.symm)
  -- Then comes the step that fails, which leaves the view as it was.
  obtain ⟨w, rfl, hsame, hmade, hcases⟩ :=
    hlate.cons_cases hu fun w hw hmade => (hstep env w hw hmade).1
  rcases hcases with ⟨later, rfl, hrest⟩ | ⟨error, hpolicy, -⟩
  · have hlength : early.length = before.length := by rw [← hsteps, List.length_map]
    have hvw : w = v := by simpa [← hlength] using hv
    subst hvw
    obtain ⟨hgoes, hquiet⟩ := hstep env w rfl hmade
    obtain ⟨error, hend⟩ := exists_of_failure hf
    have hafter : view w.after.context = view u'.context := by
      rw [hquiet error hend, ← hsame.1, hview, hview']
    -- The rest goes on from there.
    obtain ⟨rfl, -, hfinal, hsteps, hended⟩ := hrest.played heffects' hgoes
    obtain ⟨rfl, -, hfinal', hsteps', hended'⟩ := hlate'.played heffects' hu'
    rw [hafter] at hfinal hended
    obtain ⟨hexecuted', hfailures'⟩ :=
      reports_eq (hsteps.trans hsteps'.symm) (hended.trans hended'.symm)
    refine ⟨rfl, rfl, hfinal.trans hfinal'.symm, ?_, failuresIn early', failuresIn late', ?_, ?_⟩
    · simp only [executedIn, Visit.executed?, List.filterMap_append, List.filterMap_cons, hend] at *
      rw [hexecuted, hexecuted']
    · simp only [failuresIn, List.filterMap_append, List.filterMap_cons, hf] at *
      rw [hfailures, hfailures']
    · simp only [failuresIn, List.filterMap_append]
  · cases hpolicy

end

end Gateware
