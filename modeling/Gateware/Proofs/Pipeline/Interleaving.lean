import Gateware.Proofs.Pipeline.Policy
import Mathlib.Data.List.Forall2

/-!
# Runs in which only some steps matter

Often a few steps of a pipeline do the work, and the others look on.  What matters of the context is
what a `view` shows.  A step that looks on (`Step.Observes`) leaves the view as it is; the other
steps act on the view alone (`Step.ActsBy`).  Neither kind cancels the run.

The steps of the first kind are strewn among those of the second (`Woven`).  By induction on how
they are strewn, `Runs.woven` says that a run does to the view what the working steps do to it in a
row (`play`), unless it stops at a failure (`PlayedOut`).
-/

namespace Gateware

/-! ## Interleavings -/

/-- Items that stay in order, with others of a certain kind strewn among them. -/
inductive Woven {α : Type} (P : α → Prop) : List α → List α → Prop
  | nil : Woven P [] []
  | kept {a : α} {items all : List α} (h : Woven P items all) : Woven P (a :: items) (a :: all)
  | strewn {a : α} {items all : List α} (ha : P a) (h : Woven P items all) :
      Woven P items (a :: all)

section

variable {α : Type} {P : α → Prop}

lemma Woven.of_forall : ∀ (all : List α), (∀ a ∈ all, P a) → Woven P [] all
  | [], _ => .nil
  | a :: all, h =>
      .strewn (h a List.mem_cons_self) (of_forall all fun b hb => h b (List.mem_cons_of_mem a hb))

variable {items all : List α}

lemma Woven.mem {a : α} (h : Woven P items all) (ha : a ∈ items) : a ∈ all := by
  induction h with
  | nil => exact ha
  | kept _ ih =>
      rcases List.mem_cons.mp ha with rfl | ha
      · exact List.mem_cons_self
      · exact List.mem_cons_of_mem _ (ih ha)
  | strewn _ _ ih => exact List.mem_cons_of_mem _ (ih ha)

lemma Woven.mem_or {a : α} (h : Woven P items all) (ha : a ∈ all) : a ∈ items ∨ P a := by
  induction h with
  | nil => exact .inl ha
  | kept _ ih =>
      rcases List.mem_cons.mp ha with rfl | ha
      · exact .inl List.mem_cons_self
      · exact (ih ha).imp_left (List.mem_cons_of_mem _)
  | strewn hb _ ih =>
      rcases List.mem_cons.mp ha with rfl | ha
      · exact .inr hb
      · exact ih ha

lemma Woven.imp {Q : α → Prop} (hPQ : ∀ a, P a → Q a) (h : Woven P items all) :
    Woven Q items all := by
  induction h with
  | nil => exact .nil
  | kept _ ih => exact .kept ih
  | strewn ha _ ih => exact .strewn (hPQ _ ha) ih

/-- An item that is of the kind of the others may be counted among them. -/
lemma Woven.release {a : α} (h : Woven P (a :: items) all) (ha : P a) : Woven P items all := by
  generalize hitems : a :: items = kept at h
  induction h with
  | nil => cases hitems
  | kept h _ =>
      cases hitems
      exact .strewn ha h
  | strewn hb _ ih => exact .strewn hb (ih hitems)

/-- Among the first of all there are the first of the items. -/
lemma Woven.exists_of_prefix {first : List α} (h : Woven P items all) (hfirst : first <+: all) :
    ∃ front, front <+: items ∧ Woven P front first := by
  induction h generalizing first with
  | nil =>
      rw [List.prefix_nil.mp hfirst]
      exact ⟨[], List.nil_prefix, .nil⟩
  | @kept a items all _ ih =>
      rcases List.prefix_cons_iff.mp hfirst with rfl | ⟨rest, rfl, hrest⟩
      · exact ⟨[], List.nil_prefix, .nil⟩
      · obtain ⟨front, hfront, hw⟩ := ih hrest
        exact ⟨a :: front, List.cons_prefix_cons.mpr ⟨rfl, hfront⟩, .kept hw⟩
  | strewn ha _ ih =>
      rcases List.prefix_cons_iff.mp hfirst with rfl | ⟨rest, rfl, hrest⟩
      · exact ⟨[], List.nil_prefix, .nil⟩
      · obtain ⟨front, hfront, hw⟩ := ih hrest
        exact ⟨front, hfront, .strewn ha hw⟩

/-- An item that is put in its place comes before the first of the others that does not precede
it. -/
lemma Woven.insert {priority : α → Float} {a : α} (h : Woven P items all)
    (hfirst : ∀ b ∈ items.head?, ¬ priority a < priority b) :
    Woven P (a :: items) (insertByPriority priority a all) := by
  induction h with
  | nil => exact .kept .nil
  | @kept b items all h ih =>
      rw [insertByPriority, if_neg (hfirst b rfl)]
      exact .kept (.kept h)
  | @strewn b items all hb h ih =>
      rw [insertByPriority]
      split_ifs
      · exact .strewn hb (ih hfirst)
      · exact .kept (.strewn hb h)

end

/-! ## Steps that look on and steps that work -/

variable {ρ σ ε κ : Type}

/-- A step does not cancel the run, and leaves what `view` shows as it was. -/
def Step.Observes (view : σ → κ) (step : Step ρ σ ε) : Prop :=
  ∀ (env : ρ) (v : Visit ρ σ ε), v.step = step → v.Made env →
    v.after.cancelled = false ∧ view v.after.context = view v.before.context

/-- A step does not cancel the run; what it makes of what `view` shows, and its result, depend on
nothing else. -/
def Step.ActsBy (view : σ → κ) (step : Step ρ σ ε) (effect : ρ → κ → κ × Except ε Unit) : Prop :=
  ∀ (env : ρ) (v : Visit ρ σ ε), v.step = step → v.Made env →
    v.after.cancelled = false ∧
      view v.after.context = (effect env (view v.before.context)).1 ∧
      v.ended = .finished (effect env (view v.before.context)).2

section

variable {s t : Session σ} {ended : StepEnd ε} {result : Except ε Unit}

lemma Activity.Ends.of_finished (h : (Activity.finished result).Ends s t ended)
    (hs : s.cancelled = false) : t = s ∧ ended = .finished result := by
  cases h with
  | cancelled hcancelled =>
      rw [hs] at hcancelled
      contradiction
  | ready => exact ⟨rfl, rfl⟩

lemma Activity.Ends.of_working {work : Session σ → Session σ × Option (Except ε Unit)}
    {next : Session σ → Activity σ ε} {u : Session σ}
    (h : (Activity.working work next).Ends s t ended) (hs : s.cancelled = false)
    (hwork : work s = (u, some result)) : t = u ∧ ended = .finished result := by
  cases h with
  | cancelled hcancelled =>
      rw [hs] at hcancelled
      contradiction
  | worked _ hwork' =>
      cases hwork.symm.trans hwork'
      exact ⟨rfl, rfl⟩
  | suspended _ hwork' => cases hwork.symm.trans hwork'

variable {env : ρ} {v : Visit ρ σ ε} {name : String} {priority : Float}
  {run : ρ → Session σ → Session σ × Except ε Unit}

/-- A visit to a step that works when it is called, and does not cancel the run. -/
lemma Visit.Made.immediate (hv : v.Made env) (hstep : v.step = .immediate name priority run)
    (hgoes : (run env v.before).1.cancelled = false) :
    v.after = (run env v.before).1 ∧ v.ended = .finished (run env v.before).2 := by
  obtain ⟨-, called, activity, hcall, hends⟩ := hv
  rw [hstep] at hcall
  cases hcall
  exact hends.of_finished hgoes

/-- A visit to a step that works after it has been called. -/
lemma Visit.Made.deferred (hv : v.Made env) (hstep : v.step = .deferred name priority run) :
    v.after = (run env v.before).1 ∧ v.ended = .finished (run env v.before).2 := by
  obtain ⟨hgoes, called, activity, hcall, hends⟩ := hv
  rw [hstep] at hcall
  cases hcall
  exact hends.of_working hgoes rfl

end

/-! ## Runs -/

lemma Woven.mem_failuresIn {P : Step ρ σ ε → Prop} {worked visits : List (Visit ρ σ ε)}
    {f : StepFailure ε} (h : Woven (fun v => P v.step) worked visits) :
    f ∈ failuresIn visits ↔
      (∃ v ∈ visits, P v.step ∧ v.failure? = some f) ∨ f ∈ failuresIn worked := by
  simp only [failuresIn, List.mem_filterMap]
  constructor
  · rintro ⟨v, hv, hf⟩
    rcases h.mem_or hv with hworked | hP
    · exact .inr ⟨v, hworked, hf⟩
    · exact .inl ⟨v, hv, hP, hf⟩
  · rintro (⟨v, hv, -, hf⟩ | ⟨v, hv, hf⟩)
    · exact ⟨v, hv, hf⟩
    · exact ⟨v, h.mem hv, hf⟩

/-- What working steps make of a view one after the other, and their results. -/
def play (env : ρ) : List (ρ → κ → κ × Except ε Unit) → κ → κ × List (Except ε Unit)
  | [], k => (k, [])
  | effect :: effects, k =>
    let (k, result) := effect env k
    let (k, results) := play env effects k
    (k, result :: results)

/-- What becomes of a run in which working steps have played: it has completed with what they have
made of the view, or a step has failed and the policy was to stop then. -/
inductive PlayedOut (P : Step ρ σ ε → Prop) (policy : FailurePolicy) (own : List (Step ρ σ ε))
    (played : κ × List (Except ε Unit)) (final : κ) (visits : List (Visit ρ σ ε)) : RunEnd ε → Prop
  | completed {worked : List (Visit ρ σ ε)} (hfinal : final = played.1)
      (hworked : Woven (fun v => P v.step) worked visits) (hsteps : worked.map (·.step) = own)
      (hended : worked.map (·.ended) = played.2.map .finished) :
      PlayedOut P policy own played final visits .completed
  /-- The step was one that looks on, or one of the others. -/
  | stopped {f : StepFailure ε} (hpolicy : policy = .abort)
      (hcause : (∃ v ∈ visits, P v.step ∧ v.failure?.isSome = true) ∨
        ∃ error, .error error ∈ played.2) :
      PlayedOut P policy own played final visits (.failed f)

section

variable {P : Step ρ σ ε → Prop} {policy : FailurePolicy} {own : List (Step ρ σ ε)} {final : κ}
  {played : κ × List (Except ε Unit)} {v : Visit ρ σ ε} {visits : List (Visit ρ σ ε)} {e : RunEnd ε}

lemma PlayedOut.kept {result : Except ε Unit} (h : PlayedOut P policy own played final visits e)
    (hend : v.ended = .finished result) :
    PlayedOut P policy (v.step :: own) (played.1, result :: played.2) final (v :: visits) e := by
  cases h with
  | @completed worked hfinal hworked hsteps hended =>
      have hsteps' : (v :: worked).map (·.step) = v.step :: own := by rw [List.map_cons, hsteps]
      have hended' : (v :: worked).map (·.ended) = (result :: played.2).map .finished := by
        rw [List.map_cons, List.map_cons, hend, hended]
      exact .completed hfinal (.kept hworked) hsteps' hended'
  | stopped hpolicy hcause =>
      refine .stopped hpolicy (hcause.imp ?_ ?_)
      · rintro ⟨u, hu, hfails⟩
        exact ⟨u, List.mem_cons_of_mem v hu, hfails⟩
      · rintro ⟨error, herror⟩
        exact ⟨error, List.mem_cons_of_mem _ herror⟩

lemma PlayedOut.strewn (h : PlayedOut P policy own played final visits e) (hv : P v.step) :
    PlayedOut P policy own played final (v :: visits) e := by
  cases h with
  | completed hfinal hworked hsteps hended =>
      exact .completed hfinal (.strewn hv hworked) hsteps hended
  | stopped hpolicy hcause =>
      refine .stopped hpolicy (hcause.imp_left ?_)
      rintro ⟨u, hu, hfails⟩
      exact ⟨u, List.mem_cons_of_mem v hu, hfails⟩

end

section

variable {policy : FailurePolicy} {env : ρ} {s t : Session σ} {visits : List (Visit ρ σ ε)}
  {e : RunEnd ε}

/-- How a run begins if its first step does not cancel it: after the step the run either goes on or
fails. -/
lemma Runs.cons_cases {step : Step ρ σ ε} {rest : List (Step ρ σ ε)}
    (h : Runs policy env (step :: rest) s visits t e) (hs : s.cancelled = false)
    (hstays : ∀ v : Visit ρ σ ε, v.step = step → v.Made env → v.after.cancelled = false) :
    ∃ v : Visit ρ σ ε, v.step = step ∧ s.Same v.before ∧ v.Made env ∧
      ((∃ later, visits = v :: later ∧ Runs policy env rest v.after later t e) ∨
        ∃ error, policy = .abort ∧ visits = [v] ∧ v.ended = .finished (.error error) ∧
          v.after.Same t ∧ ∃ f, e = .failed f) := by
  cases h with
  | stopped hcancelled =>
      rw [hs] at hcancelled
      contradiction
  | @interrupted _ _ v _ hsame hv hend =>
      have hcancelled := hv.cancelled_of_interrupted hend
      rw [hstays v rfl hv] at hcancelled
      contradiction
  | succeeded hsame hv _ hrest =>
      exact ⟨_, rfl, hsame, hv, .inl ⟨_, rfl, hrest⟩⟩
  | aborted hsame hv hend hpolicy ht =>
      exact ⟨_, rfl, hsame, hv, .inr ⟨_, hpolicy, rfl, hend, ht, _, rfl⟩⟩
  | passed hsame hv _ _ hrest =>
      exact ⟨_, rfl, hsame, hv, .inl ⟨_, rfl, hrest⟩⟩

/-- **A run does what its working steps do**, and completes, unless its policy lets it stop at a
failed step. -/
theorem Runs.woven {view : σ → κ} {P : Step ρ σ ε → Prop}
    (hP : ∀ step, P step → step.Observes view) {own steps : List (Step ρ σ ε)}
    {effects : List (ρ → κ → κ × Except ε Unit)} (hw : Woven P own steps)
    (hown : List.Forall₂ (Step.ActsBy view) own effects)
    (h : Runs policy env steps s visits t e) (hs : s.cancelled = false) :
    t.cancelled = false ∧
      PlayedOut P policy own (play env effects (view s.context)) (view t.context) visits e := by
  -- By induction on how the steps are strewn: what the view shows is handed on from step to step,
  -- while the rest of the context may change in between.
  induction hw generalizing s visits effects with
  | nil =>
      cases hown
      cases h with
      | done ht => exact ⟨ht.2 ▸ hs, .completed (ht.1 ▸ rfl) .nil rfl rfl⟩
  | @kept step own steps hw ih =>
      cases hown with
      | @cons _ effect _ effects heffect hown =>
          obtain ⟨v, hstep, hsame, hv, hcases⟩ :=
            h.cons_cases hs fun v hstep hv => (heffect env v hstep hv).1
          obtain ⟨hstays, hview, hend⟩ := heffect env v hstep hv
          rw [← hsame.1] at hview hend
          have hplay : play env (effect :: effects) (view s.context) =
              ((play env effects (view v.after.context)).1,
                (effect env (view s.context)).2 ::
                  (play env effects (view v.after.context)).2) := by
            rw [hview]
            rfl
          rw [hplay, ← hstep]
          rcases hcases with ⟨later, rfl, hrest⟩ | ⟨error, hpolicy, rfl, herror, ht, f, rfl⟩
          · obtain ⟨ht, hout⟩ := ih hown hrest hstays
            exact ⟨ht, hout.kept hend⟩
          · have hresult : (effect env (view s.context)).2 = .error error := by
              rw [hend] at herror
              exact StepEnd.finished.inj herror
            rw [hresult]
            exact ⟨ht.2 ▸ hstays, .stopped hpolicy (.inr ⟨error, List.mem_cons_self⟩)⟩
  | @strewn step own steps hobserves hw ih =>
      obtain ⟨v, hstep, hsame, hv, hcases⟩ :=
        h.cons_cases hs fun v hstep hv => (hP step hobserves env v hstep hv).1
      obtain ⟨hstays, hview⟩ := hP step hobserves env v hstep hv
      rw [← hsame.1] at hview
      rw [← hview]
      have hadded : P v.step := hstep ▸ hobserves
      rcases hcases with ⟨later, rfl, hrest⟩ | ⟨error, hpolicy, rfl, herror, ht, f, rfl⟩
      · obtain ⟨ht, hout⟩ := ih hown hrest hstays
        exact ⟨ht, hout.strewn hadded⟩
      · have hfails : v.failure?.isSome = true := by simp [Visit.failure?, herror]
        exact ⟨ht.2 ▸ hstays,
          .stopped hpolicy (.inl ⟨v, List.mem_singleton_self v, hadded, hfails⟩)⟩

end

end Gateware
