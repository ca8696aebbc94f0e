import Gateware.Pipeline.Run
import Mathlib.Data.List.Basic
import Mathlib.Tactic.Common

/-!
# The course of a run

A run calls steps one after the other.  Each call is a `Visit`: the step, the session on which it
was called, the session that it left behind, and how it ended.  `Activity.Ends` says how a called
step can end, and `Runs` how a run goes on after each end, as rules that mention neither notes nor
reports.  `runSteps_runs` shows that a pipeline runs by these rules and reports what the visits
were; all else about runs is read off the rules.

A run can be cancelled while a step is at work.  The step is looked at before it is carried on, and
only then: a step that ends in the same piece of work in which it cancels the run still gives its
result, whereas one that has cancelled the run when it is first looked at is interrupted, even if it
has nothing left to do.
-/

namespace Gateware

variable {ρ σ ε : Type}

/-- Two sessions agree but for their notes. -/
def Session.Same (s t : Session σ) : Prop := s.context = t.context ∧ s.cancelled = t.cancelled

lemma Session.Same.refl (s : Session σ) : s.Same s := ⟨rfl, rfl⟩

lemma Session.same_note (s : Session σ) (origin : Origin) (severity : Severity) (text : String) :
    s.Same (s.note origin severity text) := ⟨rfl, rfl⟩

lemma Session.Same.trans {s t u : Session σ} (hst : s.Same t) (htu : t.Same u) : s.Same u :=
  ⟨hst.1.trans htu.1, hst.2.trans htu.2⟩

/-! ## Visits -/

/-- How a called step can end, and with which session. -/
inductive Activity.Ends : Activity σ ε → Session σ → Session σ → StepEnd ε → Prop
  /-- The run is cancelled whenever the step is about to go on. -/
  | cancelled {a : Activity σ ε} {s : Session σ} (hs : s.cancelled = true) : Ends a s s .interrupted
  /-- The step waits until the run is cancelled from outside. -/
  | outside {s : Session σ} (hs : s.cancelled = false) : Ends .waiting s s.cancel .interrupted
  /-- The result is there already. -/
  | ready {s : Session σ} {result : Except ε Unit} (hs : s.cancelled = false) :
      Ends (.finished result) s s (.finished result)
  /-- A piece of work ends with a result. -/
  | worked {s t : Session σ} {result : Except ε Unit}
      {work : Session σ → Session σ × Option (Except ε Unit)} {next : Session σ → Activity σ ε}
      (hs : s.cancelled = false) (hwork : work s = (t, some result)) :
      Ends (.working work next) s t (.finished result)
  /-- A piece of work ends without a result, and the step goes on after it. -/
  | suspended {s t u : Session σ} {e : StepEnd ε}
      {work : Session σ → Session σ × Option (Except ε Unit)} {next : Session σ → Activity σ ε}
      (hs : s.cancelled = false) (hwork : work s = (t, none)) (hnext : Ends (next t) t u e) :
      Ends (.working work next) s u e

lemma Activity.drive_ends : ∀ (a : Activity σ ε) (s : Session σ),
    a.Ends s (a.drive s).1 (a.drive s).2
  | .finished result, s => by
      unfold drive
      split_ifs with hs
      · exact .cancelled hs
      · exact .ready (by simpa using hs)
  | .waiting, s => by
      unfold drive
      by_cases hs : s.cancelled = true
      · have hcancel : s.cancel = s := by
          rw [Session.cancel, ← hs]
        rw [hcancel]
        exact .cancelled hs
      · exact .outside (by simpa using hs)
  | .working work next, s => by
      unfold drive
      split_ifs with hs
      · exact .cancelled hs
      · have hgoes : s.cancelled = false := by simpa using hs
        rcases hwork : work s with ⟨t, _ | result⟩
        · exact .suspended hgoes hwork (drive_ends (next t) t)
        · exact .worked hgoes hwork

/-- A step that was called in a run. -/
structure Visit (ρ σ ε : Type) where
  step : Step ρ σ ε
  /-- The session on which the step was called. -/
  before : Session σ
  /-- The session that it left behind. -/
  after : Session σ
  ended : StepEnd ε

namespace Visit

/-- The step was called while the run was not cancelled, and carried on to its end. -/
def Made (env : ρ) (v : Visit ρ σ ε) : Prop :=
  v.before.cancelled = false ∧
    ∃ called activity, v.step.call env v.before = (called, activity) ∧
      activity.Ends called v.after v.ended

/-- The name of the step, if it succeeded. -/
def executed? (v : Visit ρ σ ε) : Option String :=
  match v.ended with
  | .finished (.ok ()) => some v.step.name
  | _ => none

/-- The failure of the step, if it failed. -/
def failure? (v : Visit ρ σ ε) : Option (StepFailure ε) :=
  match v.ended with
  | .finished (.error e) => some ⟨v.step.name, v.step.priority, e⟩
  | _ => none

end Visit

/-- The names of the steps that succeeded. -/
def executedIn (visits : List (Visit ρ σ ε)) : List String := visits.filterMap Visit.executed?

/-- The failures of the steps that failed. -/
def failuresIn (visits : List (Visit ρ σ ε)) : List (StepFailure ε) :=
  visits.filterMap Visit.failure?

/-! ## Runs -/

/-- How a run ends. -/
inductive RunEnd (ε : Type) where
  | completed
  | cancelled
  | failed (failure : StepFailure ε)

/-- What a run that ends in a certain way answers. -/
def RunEnd.answer (report : RunReport ε) : RunEnd ε → Except (PipelineError ε) (RunOutcome ε)
  | completed => .ok (.completed report)
  | cancelled => .ok (.cancelled report.executed)
  | failed failure => .error (.stepFailed failure)

/-- The course of a run over some steps, from one session to another. -/
inductive Runs (policy : FailurePolicy) (env : ρ) :
    List (Step ρ σ ε) → Session σ → List (Visit ρ σ ε) → Session σ → RunEnd ε → Prop
  /-- No step is left. -/
  | done {s t : Session σ} (ht : s.Same t) : Runs policy env [] s [] t .completed
  /-- The run was cancelled before a step. -/
  | stopped {s t : Session σ} {step : Step ρ σ ε} {rest : List (Step ρ σ ε)}
      (hs : s.cancelled = true) (ht : s.Same t) : Runs policy env (step :: rest) s [] t .cancelled
  /-- The run was cancelled during a step. -/
  | interrupted {s t : Session σ} {v : Visit ρ σ ε} {rest : List (Step ρ σ ε)}
      (hs : s.Same v.before) (hv : v.Made env) (hend : v.ended = .interrupted)
      (ht : v.after.Same t) : Runs policy env (v.step :: rest) s [v] t .cancelled
  /-- A step succeeded, and the run goes on. -/
  | succeeded {s t : Session σ} {v : Visit ρ σ ε} {rest : List (Step ρ σ ε)}
      {visits : List (Visit ρ σ ε)} {e : RunEnd ε}
      (hs : s.Same v.before) (hv : v.Made env) (hend : v.ended = .finished (.ok ()))
      (hrest : Runs policy env rest v.after visits t e) :
      Runs policy env (v.step :: rest) s (v :: visits) t e
  /-- A step failed, which ends the run. -/
  | aborted {s t : Session σ} {v : Visit ρ σ ε} {rest : List (Step ρ σ ε)} {error : ε}
      (hs : s.Same v.before) (hv : v.Made env) (hend : v.ended = .finished (.error error))
      (hpolicy : policy = .abort) (ht : v.after.Same t) :
      Runs policy env (v.step :: rest) s [v] t (.failed ⟨v.step.name, v.step.priority, error⟩)
  /-- A step failed, and the run goes on. -/
  | passed {s t : Session σ} {v : Visit ρ σ ε} {rest : List (Step ρ σ ε)}
      {visits : List (Visit ρ σ ε)} {e : RunEnd ε} {error : ε}
      (hs : s.Same v.before) (hv : v.Made env) (hend : v.ended = .finished (.error error))
      (hpolicy : policy = .proceed) (hrest : Runs policy env rest v.after visits t e) :
      Runs policy env (v.step :: rest) s (v :: visits) t e

/-- What was reported before, with the visits made since then. -/
def RunReport.followedBy (report : RunReport ε) (visits : List (Visit ρ σ ε)) : RunReport ε :=
  ⟨report.executed ++ executedIn visits, report.failures ++ failuresIn visits⟩

section

variable {report : RunReport ε} {v : Visit ρ σ ε} {visits : List (Visit ρ σ ε)}

@[simp] lemma RunReport.followedBy_nil : report.followedBy ([] : List (Visit ρ σ ε)) = report := by
  simp [followedBy, executedIn, failuresIn]

lemma RunReport.followedBy_interrupted (hend : v.ended = .interrupted) :
    report.followedBy (v :: visits) = report.followedBy visits := by
  simp [followedBy, executedIn, failuresIn, Visit.executed?, Visit.failure?, hend]

lemma RunReport.followedBy_succeeded (hend : v.ended = .finished (.ok ())) :
    report.followedBy (v :: visits) =
      RunReport.followedBy { report with
        executed := report.executed ++ [v.step.name] } visits := by
  simp [followedBy, executedIn, failuresIn, Visit.executed?, Visit.failure?, hend]

lemma RunReport.followedBy_failed {error : ε} (hend : v.ended = .finished (.error error)) :
    report.followedBy (v :: visits) =
      RunReport.followedBy { report with
        failures := report.failures ++ [⟨v.step.name, v.step.priority, error⟩] } visits := by
  simp [followedBy, executedIn, failuresIn, Visit.executed?, Visit.failure?, hend]

end

/-- A run does not depend on the notes with which it starts. -/
lemma Runs.of_same {policy : FailurePolicy} {env : ρ} {steps : List (Step ρ σ ε)}
    {s s' t : Session σ} {visits : List (Visit ρ σ ε)} {e : RunEnd ε} (hs : s.Same s')
    (h : Runs policy env steps s' visits t e) : Runs policy env steps s visits t e := by
  cases h with
  | done ht => exact .done (hs.trans ht)
  | stopped hs' ht => exact .stopped (hs.2.trans hs') (hs.trans ht)
  | interrupted hs' hv hend ht => exact .interrupted (hs.trans hs') hv hend ht
  | succeeded hs' hv hend hrest => exact .succeeded (hs.trans hs') hv hend hrest
  | aborted hs' hv hend hpolicy ht => exact .aborted (hs.trans hs') hv hend hpolicy ht
  | passed hs' hv hend hpolicy hrest => exact .passed (hs.trans hs') hv hend hpolicy hrest

/-- What a run does at a step, unless it was cancelled before: it visits the step, and then goes by
the end of the visit and by its policy. -/
lemma runSteps_cons (describe : ε → String) (policy : FailurePolicy) (env : ρ)
    (report : RunReport ε) (step : Step ρ σ ε) (rest : List (Step ρ σ ε)) {s : Session σ}
    (hs : s.cancelled = false) :
    ∃ v : Visit ρ σ ε, v.step = step ∧ s.Same v.before ∧ v.Made env ∧ ∃ t, v.after.Same t ∧
      Pipeline.runSteps describe policy env report (step :: rest) s =
        match v.ended, policy with
        | .interrupted, _ => (t, .ok (.cancelled report.executed))
        | .finished (.ok ()), _ =>
          Pipeline.runSteps describe policy env
            { report with executed := report.executed ++ [step.name] } rest t
        | .finished (.error e), .abort => (t, .error (.stepFailed ⟨step.name, step.priority, e⟩))
        | .finished (.error e), .proceed =>
          Pipeline.runSteps describe policy env
            { report with failures := report.failures ++ [⟨step.name, step.priority, e⟩] }
            rest t := by
  rw [Pipeline.runSteps, hs]
  generalize hbefore : s.note .pipeline .debug _ = before
  have hsame : s.Same before := hbefore ▸ Session.same_note ..
  rcases hcall : step.call env before with ⟨called, activity⟩
  rcases hdrive : activity.drive called with ⟨after, ended⟩
  have hends : activity.Ends called after ended := by
    have h := activity.drive_ends called
    rwa [hdrive] at h
  refine ⟨⟨step, before, after, ended⟩, rfl, hsame,
    ⟨hsame.2.symm.trans hs, called, activity, hcall, hends⟩, ?_⟩
  simp only [hcall, hdrive]
  rcases ended with (error | ⟨⟩) | _
  · cases policy with
    | abort => exact ⟨_, Session.same_note .., rfl⟩
    | proceed => exact ⟨_, Session.same_note .., rfl⟩
  · exact ⟨_, Session.same_note .., rfl⟩
  · exact ⟨_, Session.same_note .., rfl⟩

/-- A pipeline runs by the rules, and reports the visits. -/
lemma runSteps_runs (describe : ε → String) (policy : FailurePolicy) (env : ρ) :
    ∀ (steps : List (Step ρ σ ε)) (s : Session σ) (report : RunReport ε),
      ∃ visits e, Runs policy env steps s visits
          (Pipeline.runSteps describe policy env report steps s).1 e ∧
        (Pipeline.runSteps describe policy env report steps s).2 =
          e.answer (report.followedBy visits)
  | [], s, report => ⟨[], .completed, .done (.refl s), by simp [Pipeline.runSteps, RunEnd.answer]⟩
  | step :: rest, s, report => by
      by_cases hs : s.cancelled = true
      · rw [Pipeline.runSteps, if_pos hs]
        exact ⟨[], .cancelled, .stopped hs (Session.same_note ..), by simp [RunEnd.answer]⟩
      · have hgoes : s.cancelled = false := by simpa using hs
        obtain ⟨v, rfl, hsame, hv, t, ht, hrun⟩ :=
          runSteps_cons describe policy env report step rest hgoes
        rw [hrun]
        cases hend : v.ended with
        | interrupted =>
            refine ⟨[v], .cancelled, .interrupted hsame hv hend ht, ?_⟩
            rw [RunReport.followedBy_interrupted hend, RunReport.followedBy_nil]
            rfl
        | finished result =>
            cases result with
            | ok u =>
                obtain ⟨visits, e, hruns, hanswer⟩ := runSteps_runs describe policy env rest t
                  { report with executed := report.executed ++ [v.step.name] }
                refine ⟨v :: visits, e, .succeeded hsame hv hend (hruns.of_same ht), ?_⟩
                rw [RunReport.followedBy_succeeded hend]
                exact hanswer
            | error error =>
                cases policy with
                | abort => exact ⟨[v], .failed _, .aborted hsame hv hend rfl ht, rfl⟩
                | proceed =>
                    obtain ⟨visits, e, hruns, hanswer⟩ := runSteps_runs describe .proceed env rest t
                      { report with
                        failures := report.failures ++ [⟨v.step.name, v.step.priority, error⟩] }
                    refine ⟨v :: visits, e, .passed hsame hv hend rfl (hruns.of_same ht), ?_⟩
                    rw [RunReport.followedBy_failed hend]
                    exact hanswer

end Gateware
