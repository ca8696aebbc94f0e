import Gateware.Proofs.Pipeline.Visits

/-!
# What a run answers

A run is accounted for by the visits that it made (`Account`).  The visits go through the steps in
their order, each from where the one before it stopped, and none is made once the run is cancelled.
What the run answers is then settled by how the visits ended and by the policy: whether it
completed, was cancelled or failed, which steps it reports, and on which step it puts the blame.

What a step returned is another matter than how its visit ended (`Visit.returned?`).  A run looks at
the cancellation before it takes the result of a step.  So a step that cancels the run within its
call, and has its result ready by then, returns it in vain: the visit counts as interrupted, and
neither a success nor a failure is reported.  Every other result counts
(`Visit.Made.ended_eq_finished`).

Each part of the account is read off the rules of a run, by induction on its course; together they
are `run_account`.
-/

namespace Gateware

variable {ρ σ ε : Type}

/-! ## Visits in a row -/

/-- Visits were made one after the other, from one session to another. -/
inductive Visited (env : ρ) : Session σ → List (Visit ρ σ ε) → Session σ → Prop
  | none {s t : Session σ} (ht : s.Same t) : Visited env s [] t
  | next {s t : Session σ} {v : Visit ρ σ ε} {visits : List (Visit ρ σ ε)}
      (hs : s.Same v.before) (hv : v.Made env) (hrest : Visited env v.after visits t) :
      Visited env s (v :: visits) t

/-- Whether the step gave a result. -/
def Visit.hasFinished (v : Visit ρ σ ε) : Bool :=
  match v.ended with
  | .finished _ => true
  | .interrupted => false

/-- The steps that gave a result are those that succeeded together with those that failed. -/
lemma finished_perm : ∀ visits : List (Visit ρ σ ε),
    (executedIn visits ++ (failuresIn visits).map (·.step)).Perm
      ((visits.filter Visit.hasFinished).map (·.step.name))
  | [] => .refl _
  | v :: visits => by
      have ih := finished_perm visits
      unfold executedIn failuresIn at ih ⊢
      cases hend : v.ended with
      | interrupted =>
          simpa [Visit.executed?, Visit.failure?, Visit.hasFinished, hend] using ih
      | finished result =>
          cases result with
          | ok u =>
              simpa [Visit.executed?, Visit.failure?, Visit.hasFinished, hend] using ih
          | error e =>
              simpa [Visit.executed?, Visit.failure?, Visit.hasFinished, hend] using
                List.perm_middle.trans (ih.cons v.step.name)

/-! ## What called steps return -/

/-- The result that a called step returns, if it gets to that.  A step that is suspended while the
run is cancelled is not carried on, and so returns nothing. -/
def Activity.returned? : Activity σ ε → Session σ → Option (Except ε Unit)
  | finished result, _ => some result
  | waiting, _ => none
  | working work next, s =>
    if s.cancelled then none
    else match work s with
      | (_, some result) => some result
      | (s, none) => if s.cancelled then none else returned? (next s) s

/-- The result that the step returned, whether or not the run took notice of it. -/
def Visit.returned? (env : ρ) (v : Visit ρ σ ε) : Option (Except ε Unit) :=
  (v.step.call env v.before).2.returned? (v.step.call env v.before).1

/-- Whether the step cancelled the run within its call, before it could be carried on. -/
def Visit.cancelsInCall (env : ρ) (v : Visit ρ σ ε) : Bool := (v.step.call env v.before).1.cancelled

section

variable {a : Activity σ ε} {s t : Session σ} {ended : StepEnd ε}

lemma Activity.Ends.interrupted_of_cancelled (h : a.Ends s t ended) (hs : s.cancelled = true) :
    ended = .interrupted := by
  cases h with
  | cancelled => rfl
  | outside hgoes | ready hgoes | worked hgoes | suspended hgoes => cases hs.symm.trans hgoes

/-- A step that is carried on gets as far as its result exactly if it returns one. -/
lemma Activity.Ends.eq_finished_iff {result : Except ε Unit} (h : a.Ends s t ended)
    (hs : s.cancelled = false) : ended = .finished result ↔ a.returned? s = some result := by
  induction h with
  | cancelled hcancelled =>
      rw [hs] at hcancelled
      contradiction
  | outside => simp [returned?]
  | ready => simp [returned?]
  | worked _ hwork => simp [returned?, hs, hwork]
  | @suspended s t u ended work next _ hwork hnext ih =>
      cases ht : t.cancelled with
      | true => simp [returned?, hs, hwork, ht, hnext.interrupted_of_cancelled ht]
      | false => simpa [returned?, hs, hwork, ht] using ih ht

/-- The result of a step counts, unless the step had cancelled the run within its call. -/
lemma Visit.Made.ended_eq_finished {env : ρ} {v : Visit ρ σ ε} {result : Except ε Unit}
    (hv : v.Made env) :
    v.ended = .finished result ↔ v.returned? env = some result ∧ v.cancelsInCall env = false := by
  obtain ⟨-, called, activity, hcall, hends⟩ := hv
  rw [Visit.returned?, Visit.cancelsInCall, hcall]
  cases hs : called.cancelled with
  | true => simp [hends.interrupted_of_cancelled hs]
  | false => simp [hends.eq_finished_iff hs]

lemma Visit.Made.interrupted_of_cancelsInCall {env : ρ} {v : Visit ρ σ ε} (hv : v.Made env)
    (hcancels : v.cancelsInCall env = true) : v.ended = .interrupted := by
  obtain ⟨-, called, activity, hcall, hends⟩ := hv
  rw [Visit.cancelsInCall, hcall] at hcancels
  exact hends.interrupted_of_cancelled hcancels

end

/-! ## Reading a run -/

section

variable {policy : FailurePolicy} {env : ρ} {steps : List (Step ρ σ ε)} {s t : Session σ}
  {visits : List (Visit ρ σ ε)} {e : RunEnd ε}

lemma Runs.order (h : Runs policy env steps s visits t e) : visits.map (·.step) <+: steps := by
  induction h with
  | done => exact List.nil_prefix
  | stopped => exact List.nil_prefix
  | interrupted => exact List.prefix_append _ _
  | succeeded _ _ _ _ ih => exact List.cons_prefix_cons.mpr ⟨rfl, ih⟩
  | aborted => exact List.prefix_append _ _
  | passed _ _ _ _ _ ih => exact List.cons_prefix_cons.mpr ⟨rfl, ih⟩

lemma Runs.visited (h : Runs policy env steps s visits t e) : Visited env s visits t := by
  induction h with
  | done ht => exact .none ht
  | stopped _ ht => exact .none ht
  | interrupted hs hv _ ht => exact .next hs hv (.none ht)
  | succeeded hs hv _ _ ih => exact .next hs hv ih
  | aborted hs hv _ _ ht => exact .next hs hv (.none ht)
  | passed hs hv _ _ _ ih => exact .next hs hv ih

/-- A run completes exactly if every step was called and gave a result with which the run goes
on. -/
lemma Runs.completed_iff (h : Runs policy env steps s visits t e) :
    e = .completed ↔ visits.map (·.step) = steps ∧ (∀ v ∈ visits, v.hasFinished = true) ∧
      (policy = .abort → ∀ v ∈ visits, v.failure? = none) := by
  induction h with
  | done => simp
  | stopped => simp
  | interrupted _ _ hend => simp [Visit.hasFinished, hend]
  | succeeded _ _ hend _ ih => simp [ih, Visit.hasFinished, Visit.failure?, hend]
  | aborted _ _ hend hpolicy => simp [Visit.failure?, hend, hpolicy]
  | passed _ _ hend hpolicy _ ih => simp [ih, Visit.hasFinished, hend, hpolicy]

/-- A run is cancelled exactly if a step was interrupted, or the run was cancelled while steps were
left to call. -/
lemma Runs.cancelled_iff (h : Runs policy env steps s visits t e) :
    e = .cancelled ↔ (∃ v ∈ visits, v.ended = .interrupted) ∨
      t.cancelled = true ∧ visits.length < steps.length ∧
        (policy = .abort → ∀ v ∈ visits, v.failure? = none) := by
  induction h with
  | done => simp
  | stopped hs ht => simp [← ht.2, hs]
  | interrupted _ _ hend => simp [hend]
  | succeeded _ _ hend _ ih => simp [ih, Visit.failure?, hend]
  | aborted _ _ hend hpolicy => simp [Visit.failure?, hend, hpolicy]
  | passed _ _ hend hpolicy _ ih => simp [ih, hend, hpolicy]

/-- A run fails exactly if a step failed and the policy is to stop then. -/
lemma Runs.failed_iff (h : Runs policy env steps s visits t e) :
    (∃ f, e = .failed f) ↔ policy = .abort ∧ ∃ v ∈ visits, v.failure?.isSome = true := by
  induction h with
  | done => simp
  | stopped => simp
  | interrupted _ _ hend => simp [Visit.failure?, hend]
  | succeeded _ _ hend _ ih => simp [ih, Visit.failure?, hend]
  | aborted _ _ hend hpolicy => simp [Visit.failure?, hend, hpolicy]
  | passed _ _ hend hpolicy _ ih => simp [ih, hpolicy]

/-- The blame for a failed run is on the last step that was called, the only one that failed. -/
lemma Runs.blame {f : StepFailure ε} (h : Runs policy env steps s visits t e) (he : e = .failed f) :
    ∃ earlier v, visits = earlier ++ [v] ∧ (∀ u ∈ earlier, u.failure? = none) ∧
      v.failure? = some f := by
  induction h with
  | done => cases he
  | stopped => cases he
  | interrupted => cases he
  | @succeeded s t v rest visits e _ _ hend _ ih =>
      obtain ⟨earlier, last, rfl, hearlier, hlast⟩ := ih he
      have hv : v.failure? = none := by simp [Visit.failure?, hend]
      exact ⟨v :: earlier, last, rfl, List.forall_mem_cons.mpr ⟨hv, hearlier⟩, hlast⟩
  | @aborted s t v rest error _ _ hend _ _ =>
      cases he
      exact ⟨[], v, rfl, by simp, by simp [Visit.failure?, hend]⟩
  | @passed s t v rest visits e error _ _ hend hpolicy hrest ih =>
      have hfailed := (hrest.failed_iff.mp ⟨f, he⟩).1
      rw [hpolicy] at hfailed
      contradiction

lemma Activity.Ends.cancelled_of_interrupted {a : Activity σ ε} {ended : StepEnd ε}
    (h : a.Ends s t ended) (hend : ended = .interrupted) : t.cancelled = true := by
  induction h with
  | cancelled hs => exact hs
  | outside => rfl
  | ready => cases hend
  | worked => cases hend
  | suspended _ _ _ ih => exact ih hend

lemma Visit.Made.cancelled_of_interrupted {v : Visit ρ σ ε} (hv : v.Made env)
    (hend : v.ended = .interrupted) : v.after.cancelled = true := by
  obtain ⟨-, called, activity, -, hends⟩ := hv
  exact hends.cancelled_of_interrupted hend

lemma Visited.made (h : Visited env s visits t) : ∀ v ∈ visits, v.Made env := by
  induction h with
  | none => simp
  | next _ hv _ ih => exact List.forall_mem_cons.mpr ⟨hv, ih⟩

/-- No visit is made after one that leaves the run cancelled, and the run stays cancelled. -/
lemma Visited.last_of_cancelled {earlier later : List (Visit ρ σ ε)} {v : Visit ρ σ ε}
    (h : Visited env s (earlier ++ v :: later) t) (hv : v.after.cancelled = true) :
    later = [] ∧ t.cancelled = true := by
  induction earlier generalizing s with
  | nil =>
      cases h with
      | next _ _ hrest =>
          cases hrest with
          | none ht => exact ⟨rfl, ht.2 ▸ hv⟩
          | next hs hmade =>
              have hgoes := hs.2.trans hmade.1
              rw [hv] at hgoes
              contradiction
  | cons u earlier ih =>
      cases h with
      | next _ _ hrest => exact ih hrest

end

section

variable {e : RunEnd ε} {report report' : RunReport ε}

lemma RunEnd.answer_eq_completed :
    e.answer report = .ok (.completed report') ↔ e = .completed ∧ report' = report := by
  cases e <;> simp [answer, eq_comm]

lemma RunEnd.answer_eq_cancelled {names : List String} :
    e.answer report = .ok (.cancelled names) ↔ e = .cancelled ∧ names = report.executed := by
  cases e <;> simp [answer, eq_comm]

lemma RunEnd.answer_eq_error {error : PipelineError ε} :
    e.answer report = .error error ↔ ∃ f, e = .failed f ∧ error = .stepFailed f := by
  cases e <;> simp [answer, eq_comm]

end

/-! ## The account of a run -/

/-- Visits account for a run from one session to another with the given answer. -/
structure Account (p : Pipeline ρ σ ε) (env : ρ) (s : Session σ) (visits : List (Visit ρ σ ε))
    (t : Session σ) (answer : Except (PipelineError ε) (RunOutcome ε)) : Prop where
  /-- Steps are called in their order, none twice and none left out in between. -/
  order : visits.map (·.step) <+: p.steps
  /-- Each is called on what the earlier ones left behind, and only while the run is not
  cancelled. -/
  visited : Visited env s visits t
  /-- After a visit that leaves the run cancelled there is no other, and the run stays cancelled. -/
  last (earlier later : List (Visit ρ σ ε)) (v : Visit ρ σ ε) :
    visits = earlier ++ v :: later → v.after.cancelled = true → later = [] ∧ t.cancelled = true
  /-- Only a cancelled run interrupts a step. -/
  interrupted : ∀ v ∈ visits, v.ended = .interrupted → v.after.cancelled = true
  /-- The results that count are those that were returned by steps that had not cancelled the run
  within their call. -/
  results : ∀ v ∈ visits, ∀ result, v.ended = .finished result ↔
    v.returned? env = some result ∧ v.cancelsInCall env = false
  /-- A step that cancels the run within its call is the last one, and the run is cancelled whatever
  that step returned. -/
  overruled : ∀ v ∈ visits, v.cancelsInCall env = true →
    visits.getLast? = some v ∧ answer = .ok (.cancelled (executedIn visits))
  /-- The reported steps are those that gave a result. -/
  finished : (executedIn visits ++ (failuresIn visits).map (·.step)).Perm
    ((visits.filter Visit.hasFinished).map (·.step.name))
  /-- The run completes exactly if all steps were called and gave results, without a failure if the
  policy is to stop at one; it then reports those that succeeded and those that failed, in order. -/
  completed (report : RunReport ε) : answer = .ok (.completed report) ↔
    visits.map (·.step) = p.steps ∧ (∀ v ∈ visits, v.hasFinished = true) ∧
      (p.policy = .abort → ∀ v ∈ visits, v.failure? = none) ∧
      report = ⟨executedIn visits, failuresIn visits⟩
  /-- The run is cancelled exactly if a step was interrupted, or if it was cancelled while steps
  were left to call; it then reports those that succeeded. -/
  cancelled (names : List String) : answer = .ok (.cancelled names) ↔
    ((∃ v ∈ visits, v.ended = .interrupted) ∨
      t.cancelled = true ∧ visits.length < p.steps.length ∧
        (p.policy = .abort → ∀ v ∈ visits, v.failure? = none)) ∧
      names = executedIn visits
  /-- The run fails exactly if a step failed and the policy is to stop then. -/
  failed : (∃ error, answer = .error error) ↔
    p.policy = .abort ∧ ∃ v ∈ visits, v.failure?.isSome = true
  /-- The blame is on the last step that was called, which is the first that failed. -/
  blame (error : PipelineError ε) : answer = .error error → ∃ earlier v f,
    visits = earlier ++ [v] ∧ (∀ u ∈ earlier, u.failure? = none) ∧ v.failure? = some f ∧
      error = .stepFailed f

lemma Runs.account {p : Pipeline ρ σ ε} {env : ρ} {s t : Session σ}
    {visits : List (Visit ρ σ ε)} {e : RunEnd ε} (h : Runs p.policy env p.steps s visits t e) :
    Account p env s visits t (e.answer ⟨executedIn visits, failuresIn visits⟩) where
  order := h.order
  visited := h.visited
  last _ _ _ hvisits hv := (hvisits ▸ h.visited).last_of_cancelled hv
  interrupted v hv hend := (h.visited.made v hv).cancelled_of_interrupted hend
  results v hv _ := (h.visited.made v hv).ended_eq_finished
  overruled v hv hcancels := by
    have hmade := h.visited.made v hv
    have hend := hmade.interrupted_of_cancelsInCall hcancels
    obtain ⟨earlier, later, rfl⟩ := List.append_of_mem hv
    obtain ⟨rfl, -⟩ := h.visited.last_of_cancelled (hmade.cancelled_of_interrupted hend)
    refine ⟨by simp, RunEnd.answer_eq_cancelled.mpr ⟨h.cancelled_iff.mpr ?_, rfl⟩⟩
    exact .inl ⟨v, hv, hend⟩
  finished := finished_perm visits
  completed report := by
    rw [RunEnd.answer_eq_completed, h.completed_iff, and_assoc, and_assoc]
  cancelled names := by
    rw [RunEnd.answer_eq_cancelled, h.cancelled_iff]
  failed := by
    simp only [RunEnd.answer_eq_error, ← h.failed_iff]
    constructor
    · rintro ⟨error, f, he, rfl⟩
      exact ⟨f, he⟩
    · rintro ⟨f, he⟩
      exact ⟨_, f, he, rfl⟩
  blame error herror := by
    obtain ⟨f, he, rfl⟩ := RunEnd.answer_eq_error.mp herror
    obtain ⟨earlier, v, hvisits, hearlier, hv⟩ := h.blame he
    exact ⟨earlier, v, f, hvisits, hearlier, hv, rfl⟩

lemma Pipeline.run_runs (describe : ε → String) (p : Pipeline ρ σ ε) (env : ρ) (s : Session σ) :
    ∃ visits e, Runs p.policy env p.steps s visits (p.run describe env s).1 e ∧
      (p.run describe env s).2 = e.answer ⟨executedIn visits, failuresIn visits⟩ := by
  obtain ⟨visits, e, hruns, hanswer⟩ := runSteps_runs describe p.policy env p.steps s {}
  exact ⟨visits, e, hruns, hanswer⟩

/-- **A run follows its policy and its cancellation.**  Every run of a pipeline is accounted for by
visits to its steps.  What the steps returned decides about its answer, unless a step has cancelled
the run within its call. -/
theorem run_account (describe : ε → String) (p : Pipeline ρ σ ε) (env : ρ) (s : Session σ) :
    ∃ visits, Account p env s visits (p.run describe env s).1 (p.run describe env s).2 := by
  obtain ⟨visits, e, hruns, hanswer⟩ := p.run_runs describe env s
  rw [hanswer]
  exact ⟨visits, hruns.account⟩

/-- A step that cancels the run and has its result ready, all within its call. -/
def Step.cancelAndReturn (result : Except String Unit) : Step Unit Unit String :=
  .immediate "a" 1 fun _ s => (s.cancel, result)

/-- A step returns an error, and yet the run does not fail with it, although its policy is to stop
at a failure.  Nor is the step reported if it returns without one. -/
theorem cancelling_call_overrules_result :
    let failing : Pipeline Unit Unit String := { steps := [.cancelAndReturn (.error "no")] }
    let succeeding : Pipeline Unit Unit String := { steps := [.cancelAndReturn (.ok ())] }
    failing.policy = .abort ∧
      ((Step.cancelAndReturn (.error "no")).call () ⟨(), false, []⟩).2 =
        .finished (.error "no") ∧
      (failing.run id () ⟨(), false, []⟩).2 = .ok (.cancelled []) ∧
      ((Step.cancelAndReturn (.ok ())).call () ⟨(), false, []⟩).2 = .finished (.ok ()) ∧
      (succeeding.run id () ⟨(), false, []⟩).2 = .ok (.cancelled []) :=
  ⟨rfl, rfl, rfl, rfl, rfl⟩

end Gateware
