import Gateware.Proofs.Compile.Steps
import Gateware.Proofs.Compile.Trust
import Gateware.Proofs.Pipeline.Omission

/-!
# Failed steps of a compilation

The steps that every compiler has put their results into the context, each into fields of its own.
One that fails has put in nothing, however far it got: `Amends` says both, and holds of each of the
three on every session, also where results are there already.  Whatever a step has changed stays
changed, so this is a matter of the order in which the steps do their work.

So in a compilation that goes on after failures, a failed step might as well not be there.  The
steps around it may be added ones, as long as they work on the context alone (`OnContextAlone`), and
the other two.  It matters that writing the artifact is left out then, if it is the step that
fails: it may have made directories before it failed, which another attempt to write would find.
-/

namespace Gateware

variable {τ : Type}

/-! ## What a step changes in the context -/

/-- What becomes of the context when a step ends with a result: a failed step leaves it as it was,
and a successful one changes no more than `only` permits. -/
def Amends (only : Context → Context → Prop) (s : Session (Workspace τ))
    (outcome : Session (Workspace τ) × Except StepError Unit) : Prop :=
  match outcome.2 with
  | .ok () => only s.context.context outcome.1.context.context
  | .error _ => outcome.1.context.context = s.context.context

/-- Only the channel differs. -/
def Context.SameButChannel (c c' : Context) : Prop := ∃ channel, c' = { c with channel }

/-- Only the layout, the costs and the description differ. -/
def Context.SameButDescription (c c' : Context) : Prop :=
  ∃ layout costs description, c' = { c with layout, costs, description }

/-- Only the artifact differs. -/
def Context.SameButArtifact (c c' : Context) : Prop :=
  ∃ implementation, c' = { c with implementation }

lemma configureChannel_only {c c' : Context}
    (h : (Context.configureChannel.outcome c).result = .ok c') : c.SameButChannel c' := by
  rw [configureChannel_result, map_eq_ok] at h
  obtain ⟨channel, -, rfl⟩ := h
  exact ⟨_, rfl⟩

lemma generate_only {memory : MemorySettings} {c c' : Context}
    (h : (c.generate memory).result = .ok c') : c.SameButDescription c' := by
  obtain ⟨-, table, -, -, gs, -, layout, -, rfl⟩ := generate_eq_ok.mp h
  exact ⟨_, _, _, rfl⟩

lemma Written.only {c : Context} {files : FileTree} {cancelled : Bool} {k : Context × FileTree}
    {result : Except ArtifactError Unit} (h : Written c files cancelled k result) :
    c.SameButArtifact k.1 := by
  cases h <;> exact ⟨_, rfl⟩

section

variable {only : Context → Context → Prop} {s : Session (Workspace τ)}

lemma amends_perform {ε : Type} {action : Action (Workspace τ) ε Unit} (wrap : ε → StepError)
    (hquiet : action.FailsQuietly Workspace.context)
    (honly : (action s.context).2.result = .ok () →
      only s.context.context (action s.context).1.context) :
    Amends only s (s.perform (action.mapError wrap)) := by
  have hresult : (s.perform (action.mapError wrap)).2 = (action s.context).2.result.mapError wrap :=
    Traced.result_mapError wrap _
  unfold Amends
  rw [hresult]
  cases hdone : (action s.context).2.result with
  | ok u => exact honly hdone
  | error e => exact hquiet _ e hdone

lemma amends_onContext {ε : Type} {action : Action Context ε Unit} (wrap : ε → StepError)
    (hquiet : action.FailsQuietly id)
    (honly : ∀ c', (action.outcome s.context.context).result = .ok c' →
      only s.context.context c') :
    Amends only s (s.perform ((CompileStep.onContext action).mapError wrap)) :=
  amends_perform wrap (fun w => hquiet w.context)
    fun hok => honly _ (Action.outcome_eq_ok.mpr ⟨hok, rfl⟩)

lemma amends_onStock {ε : Type} {action : Action (Context × FileTree) ε Unit}
    (wrap : ε → StepError) (hquiet : action.FailsQuietly Prod.fst)
    (honly : only s.context.context (action s.context.stock).1.1) :
    Amends only s (s.perform ((CompileStep.onStock action).mapError wrap)) :=
  amends_perform wrap (fun w => hquiet w.stock) fun _ => honly

lemma build_amends : Amends Context.SameButArtifact s (CompileStep.build s) :=
  amends_onStock .artifact (writeArtifact_failsQuietly s.cancelled)
    (writeArtifact_written s.context.stock s.cancelled).only

end

/-! ## Steps around the one that fails -/

namespace CompileStep

/-- A step that works on the context alone: what it makes of the context and its result depend on
the context and the memory settings, and it touches nothing else. -/
def OnContextAlone (step : CompileStep τ) : Prop :=
  ∃ effect : MemorySettings → Context → Context × Except StepError Unit,
    step.ActsBy id fun memory w =>
      ({ w with context := (effect memory w.context).1 }, (effect memory w.context).2)

variable {step other : CompileStep τ}

lemma OnContextAlone.actsBy_context (h : step.OnContextAlone) :
    ∃ effect, step.ActsBy Workspace.context effect := by
  obtain ⟨effect, heffect⟩ := h
  exact ⟨effect, heffect.less Workspace.context fun _ _ => rfl⟩

lemma OnContextAlone.actsBy_stock (h : step.OnContextAlone) :
    ∃ effect, step.ActsBy Workspace.stock effect := by
  obtain ⟨effect, heffect⟩ := h
  exact ⟨fun memory k => (((effect memory k.1).1, k.2), (effect memory k.1).2),
    heffect.less Workspace.stock fun _ _ => rfl⟩

lemma immediate_actsBy_context {ε : Type} (name : String) (priority : Float)
    (action : MemorySettings → Action Context ε Unit) (wrap : ε → StepError) :
    ∃ effect, (Step.immediate name priority fun memory s =>
      s.perform ((onContext (action memory)).mapError wrap) : CompileStep τ).ActsBy
        Workspace.context effect :=
  ⟨fun memory c => ((action memory c).1, (action memory c).2.result.mapError wrap),
    (immediate_actsBy name priority action wrap).less Prod.fst fun _ _ => rfl⟩

lemma artifact_failsQuietly : (artifact : CompileStep τ).FailsQuietly Workspace.context := by
  intro memory v hstep hv
  obtain ⟨hafter, hend⟩ := hv.deferred hstep
  have hgoes : (build v.before).1.cancelled = false := by simpa [build] using hv.1
  have hamends : Amends Context.SameButArtifact v.before (build v.before) := build_amends
  rw [hafter]
  refine ⟨hgoes, fun error herror => ?_⟩
  rw [hend] at herror
  have hresult : (build v.before).2 = .error error := StepEnd.finished.inj herror
  unfold Amends at hamends
  rw [hresult] at hamends
  exact hamends

lemma immediate_failsQuietly {ε : Type} (name : String) (priority : Float)
    {action : MemorySettings → Action Context ε Unit} (wrap : ε → StepError)
    (hquiet : ∀ memory, (action memory).FailsQuietly id) :
    (Step.immediate name priority fun memory s =>
      s.perform ((onContext (action memory)).mapError wrap) : CompileStep τ).FailsQuietly
        Workspace.stock := by
  refine (immediate_actsBy name priority action wrap).failsQuietly fun memory k error herror => ?_
  obtain ⟨e, he, -⟩ := mapError_eq_error.mp herror
  exact congrArg (·, k.2) (hquiet memory k.1 e he)

/-- Steps on the context alone and those that every compiler has act on context and files. -/
lemma actsBy_stock_of (h : other.OnContextAlone ∨ other ∈ Compiler.ownSteps) :
    ∃ effect, other.ActsBy Workspace.stock effect := by
  rcases h with h | h
  · exact h.actsBy_stock
  · obtain ⟨effect, -, heffect⟩ := exists_of_mem_left ownSteps_actsBy h
    exact ⟨effect, heffect⟩

/-- If nothing is written, the context alone is acted on. -/
lemma actsBy_context_of
    (h : other.OnContextAlone ∨ other ∈ Compiler.ownSteps ∧ other.name ≠ "vhdl-build-provider") :
    ∃ effect, other.ActsBy Workspace.context effect := by
  rcases h with h | ⟨hmem, hname⟩
  · exact h.actsBy_context
  · simp only [Compiler.ownSteps, List.mem_cons, List.not_mem_nil, or_false] at hmem
    rcases hmem with rfl | rfl | rfl
    · exact immediate_actsBy_context _ _ (fun _ => Context.configureChannel) .channel
    · exact immediate_actsBy_context _ _ Context.describe .generation
    · exact absurd rfl hname

/-- There is a view of the workspace, wide enough to show the context, in which a step fails
quietly and on which the others act. -/
lemma exists_quiet_view (hstep : step ∈ Compiler.ownSteps) {others : List (CompileStep τ)}
    (hothers : ∀ other ∈ others, other.OnContextAlone ∨
      other ∈ Compiler.ownSteps ∧ other.name ≠ step.name) :
    ∃ (κ : Type) (view : Workspace τ → κ) (context : κ → Context),
      (∀ w, context (view w) = w.context) ∧ step.FailsQuietly view ∧
        ∀ other ∈ others, ∃ effect, other.ActsBy view effect := by
  have hstock : ∀ other ∈ others, ∃ effect, other.ActsBy Workspace.stock effect :=
    fun other hother => actsBy_stock_of ((hothers other hother).imp_right And.left)
  simp only [Compiler.ownSteps, List.mem_cons, List.not_mem_nil, or_false] at hstep
  rcases hstep with rfl | rfl | rfl
  · exact ⟨_, Workspace.stock, Prod.fst, fun _ => rfl,
      immediate_failsQuietly _ _ .channel fun _ => configureChannel_failsQuietly, hstock⟩
  · exact ⟨_, Workspace.stock, Prod.fst, fun _ => rfl,
      immediate_failsQuietly _ _ .generation describe_failsQuietly, hstock⟩
  · -- Files may have changed, so the view must not show them.
    exact ⟨_, Workspace.context, id, fun _ => rfl, artifact_failsQuietly,
      fun other hother => actsBy_context_of (hothers other hother)⟩

end CompileStep

/-! ## Runs -/

/-- **A failed step leaves no trace.**  Each of the steps that every compiler has leaves the context
as it was if it fails, and otherwise changes only the fields that are its own.  So in a run that
goes on after failures and that nobody cancels, the context is in the end what it is without the
failed step, and the reports differ in nothing but that failure. -/
theorem failed_step_leaves_no_trace :
    (∀ (memory : MemorySettings) (s : Session (Workspace τ)), ∃ outcome,
      CompileStep.channel.call memory s = (outcome.1, .finished outcome.2) ∧
        Amends Context.SameButChannel s outcome) ∧
    (∀ (memory : MemorySettings) (s : Session (Workspace τ)), ∃ outcome,
      CompileStep.generation.call memory s = (outcome.1, .finished outcome.2) ∧
        Amends Context.SameButDescription s outcome) ∧
    (∀ s : Session (Workspace τ), Amends Context.SameButArtifact s (CompileStep.build s)) ∧
    ∀ (before after : List (CompileStep τ)) (step : CompileStep τ), step ∈ Compiler.ownSteps →
      (∀ other ∈ before ++ after, other.OnContextAlone ∨
        other ∈ Compiler.ownSteps ∧ other.name ≠ step.name) →
      ∀ (memory : MemorySettings) (s : Session (Workspace τ)), s.cancelled = false →
        let full : Pipeline _ _ _ := { steps := before ++ step :: after, policy := .proceed }
        let rest : Pipeline _ _ _ := { steps := before ++ after, policy := .proceed }
        let done := full.run StepError.message memory s
        let done' := rest.run StepError.message memory s
        ∃ visits, Account full memory s visits done.1 done.2 ∧
          ∀ v f, visits[before.length]? = some v → v.failure? = some f →
            done.1.context.context = done'.1.context.context ∧
            ∃ executed failures failures',
              done.2 = .ok (.completed ⟨executed, failures ++ f :: failures'⟩) ∧
              done'.2 = .ok (.completed ⟨executed, failures ++ failures'⟩) := by
  refine ⟨fun memory s => ⟨_, rfl, amends_onContext .channel configureChannel_failsQuietly
      fun _ => configureChannel_only⟩,
    fun memory s => ⟨_, rfl, amends_onContext .generation (describe_failsQuietly memory)
      fun _ => generate_only⟩,
    fun s => build_amends, ?_⟩
  intro before after step hstep hothers memory s hs full rest done done'
  obtain ⟨κ, view, context, hcontext, hquiet, hacts⟩ :=
    CompileStep.exists_quiet_view hstep hothers
  obtain ⟨visits, e, hruns, hanswer⟩ := full.run_runs StepError.message memory s
  obtain ⟨visits', e', hruns', hanswer'⟩ := rest.run_runs StepError.message memory s
  refine ⟨visits, hanswer ▸ hruns.account, fun v f hv hf => ?_⟩
  obtain ⟨rfl, rfl, hview, hexecuted, failures, failures', hfailures, hfailures'⟩ :=
    hruns.omit hquiet hacts hruns' hs hv hf
  refine ⟨?_, executedIn visits, failures, failures', ?_, ?_⟩
  · rw [← hcontext, ← hcontext, hview]
  · rw [hanswer, hfailures]
    rfl
  · rw [hanswer', hfailures', ← hexecuted]
    rfl

/-! ## A sample -/

/-- The sample device with less memory than the sample program takes. -/
def Device.cramped : Device :=
  { Device.bench with manifest := { Device.bench.manifest with memory := 8 } }

/-- A session with the sample program on that device. -/
def crampedSession : Session (Workspace Unit) :=
  ⟨⟨{ Context.sample with device := .cramped }, {}, ()⟩, false, []⟩

lemma CompileStep.refuse_onContextAlone : CompileStep.refuse.OnContextAlone := by
  refine ⟨fun _ c => (c, .error (.other "no")), fun memory v hstep hv => ?_⟩
  obtain ⟨hafter, hend⟩ := hv.immediate hstep hv.1
  rw [hafter, hend]
  exact ⟨hv.1, rfl, rfl⟩

/-- The failed steps with the messages of their errors, if a run completed. -/
def complaints : Except (PipelineError StepError) (RunOutcome StepError) →
    Option (List (String × String))
  | .ok (.completed report) => some (report.failures.map fun f => (f.step, f.error.message))
  | _ => none

lemma exists_of_complaints {x : Except (PipelineError StepError) (RunOutcome StepError)}
    {told : List (String × String)} (h : complaints x = some told) :
    ∃ report, x = .ok (.completed report) ∧
      report.failures.map (fun f => (f.step, f.error.message)) = told := by
  unfold complaints at h
  split at h
  · cases h
    exact ⟨_, rfl, rfl⟩
  · cases h

/-- Generation runs out of memory after every member has been lowered, between an added step that
fails and the artifact, which is then missing its description. -/
theorem failed_step_leaves_no_trace_cramped :
    let full : Pipeline _ _ _ :=
      { steps := [CompileStep.refuse, CompileStep.generation, CompileStep.artifact]
        policy := .proceed }
    let rest : Pipeline _ _ _ :=
      { steps := [CompileStep.refuse, CompileStep.artifact], policy := .proceed }
    let done := full.run StepError.message {} crampedSession
    let done' := rest.run StepError.message {} crampedSession
    done.1.context.context = done'.1.context.context ∧
      ∃ f executed failures failures',
        f.step = "hardware-transformer" ∧
        f.error.message = "device 'Bench' has 8 bytes of memory but the layout needs 12" ∧
        done.2 = .ok (.completed ⟨executed, failures ++ f :: failures'⟩) ∧
        done'.2 = .ok (.completed ⟨executed, failures ++ failures'⟩) := by
  intro full rest done done'
  have hothers : ∀ other ∈ [CompileStep.refuse] ++ [CompileStep.artifact],
      other.OnContextAlone ∨ other ∈ Compiler.ownSteps ∧
        other.name ≠ (CompileStep.generation : CompileStep Unit).name := by
    intro other hother
    rcases List.mem_pair.mp hother with rfl | rfl
    · exact .inl CompileStep.refuse_onContextAlone
    · exact .inr ⟨by simp [Compiler.ownSteps], by decide⟩
  obtain ⟨visits, haccount, hall⟩ := failed_step_leaves_no_trace.2.2.2 [CompileStep.refuse]
    [.artifact] .generation (by simp [Compiler.ownSteps]) hothers {} crampedSession rfl
  obtain ⟨report, hreport, htold⟩ := exists_of_complaints
    (show complaints done.2 = some
      [("refuse", "no"),
        ("hardware-transformer", "device 'Bench' has 8 bytes of memory but the layout needs 12"),
        ("vhdl-build-provider", "no hardware description to build")] by decide +kernel)
  obtain ⟨horder, -, -, rfl⟩ := (haccount.completed report).mp hreport
  -- All three steps have failed, so the second visit is the one in question.
  obtain ⟨first, second, third, rfl⟩ : ∃ a b c, visits = [a, b, c] :=
    List.length_eq_three.mp (by simpa using congrArg List.length horder)
  cases hfirst : first.failure? <;> cases hsecond : second.failure? <;>
    cases hthird : third.failure? <;> simp [failuresIn, hfirst, hsecond, hthird] at htold
  next f₁ f f₃ =>
    obtain ⟨-, ⟨hname, hmessage⟩, -⟩ := htold
    obtain ⟨hcontext, executed, failures, failures', hdone, hdone'⟩ := hall second f rfl hsecond
    exact ⟨hcontext, f, executed, failures, failures', hname, hmessage, hdone, hdone'⟩

end Gateware
