import Gateware.Proofs.Compile.Steps
import Gateware.Proofs.Compile.Trust
import Gateware.Proofs.Pipeline.Registration

/-!
# When a compilation completes

If added steps only look on or fail, a compilation comes down to its own three steps, wherever the
others are in between (`extend_woven`).  It completes exactly if a description can be generated for
the initial context and can be written, and, if the policy is to stop at a failure, if there was
none.  What it then hands out is what was generated, and the file that was written (`Delivered`).

Only the channel is dispensable: with a policy to go on, a compilation without one completes, and
the failure is reported with those of the added steps.  A missing description or artifact is found
when stock is taken.  `Settled` lists the ways in which such a compilation can end.
-/

namespace Gateware

variable {τ : Type}

/-! ## Compilers with added steps -/

/-- Adds steps one after the other; those that are refused are left out. -/
def Compiler.extend (c : Compiler τ) : List (CompileStep τ) → Compiler τ
  | [] => c
  | step :: rest =>
    match c.addStep step with
    | .ok c => c.extend rest
    | .error _ => c.extend rest

lemma Compiler.extend_eq : ∀ (steps : List (CompileStep τ)) (c : Compiler τ),
    c.extend steps = ⟨c.registry, (c.pipeline.offerAll steps).1⟩
  | [], c => rfl
  | step :: rest, c => by
      simp only [extend, addStep, Pipeline.offerAll, Pipeline.offer]
      cases c.pipeline.register step with
      | ok pipeline => exact extend_eq rest _
      | error e => exact extend_eq rest _

lemma ownSteps_number : ∀ step ∈ (Compiler.ownSteps : List (CompileStep τ)),
    step.priority.isNaN = false := by
  have hnumbers : ∀ x ∈ [(300 : Float), 200, 100], x.isNaN = false := by decide +kernel
  intro step hstep
  exact hnumbers _ (List.mem_map_of_mem (f := Step.priority) hstep)

lemma extend_new (registry : Registry) (policy : FailurePolicy) (added : List (CompileStep τ)) :
    (Compiler.new registry policy).extend added =
      ⟨registry, { steps := orderByPriority Step.priority (Compiler.ownSteps ++
        Pipeline.orderable added), policy }⟩ := by
  rw [Compiler.extend_eq, Pipeline.offerAll_eq added Compiler.ownSteps ownSteps_number rfl]
  rfl

/-- The steps that every compiler has stay in order, wherever others are added. -/
lemma extend_woven (registry : Registry) (policy : FailurePolicy) (added : List (CompileStep τ)) :
    Woven (· ∈ added) Compiler.ownSteps
      ((Compiler.new registry policy).extend added).pipeline.steps := by
  have hperm : (orderByPriority Step.priority (Pipeline.orderable added)).Perm _ :=
    orderByPriority_perm fun _ => Pipeline.isNaN_of_mem_orderable
  have hadded : Woven (· ∈ added) []
      (orderByPriority Step.priority (Pipeline.orderable added)) :=
    .of_forall _ fun step hstep => List.mem_of_mem_filter (hperm.mem_iff.mp hstep)
  have hgeneration : ¬ (200 : Float) < 100 := by decide +kernel
  have hchannel : ¬ (300 : Float) < 200 := by decide +kernel
  rw [extend_new]
  -- The artifact is put in place first, then the description, then the channel.
  refine .insert (.insert (.insert hadded ?_) ?_) ?_
  · rintro b ⟨⟩
  · rintro b ⟨⟩
    exact hgeneration
  · rintro b ⟨⟩
    exact hchannel

/-! ## What is delivered -/

/-- A result and the failures beside it are what the steps of every compiler make of an initial
context, and the artifact is there to be read. -/
structure Delivered (added : List (CompileStep τ)) (initial : Context) (memory : MemorySettings)
    (visits : List (Visit MemorySettings (Workspace τ) StepError)) (files : FileTree)
    (r : Representation) (failures : List (StepFailure StepError)) : Prop where
  assemblies : initial.program.assemblyPaths = .ok r.assemblies
  settings : r.memory = memory
  /-- The description, the costs and the layout are those of the generated context. -/
  generated : ∃ c', (initial.generate memory).result = .ok c' ∧
    c'.description = some r.description ∧ c'.costs = r.costs ∧ c'.layout = r.layout
  vhdl : r.description.language = .vhdl
  /-- There is one cost for each member, in order. -/
  costs : List.Forall₂ (fun m cost => cost.member = m.name ∧
    cost.entity = entityName initial.request.top m.name) initial.program.members r.costs
  /-- The file holds the description. -/
  file : files.read initial.artifactPath = .ok r.description.source
  implementation : r.implementation = ⟨initial.artifactPath, r.description.fingerprint⟩
  channel : r.channel = initial.chosen.toOption
  /-- Failures are listed in the order of the steps. -/
  order : failures = failuresIn visits
  /-- They are those of added steps, and that of choosing the channel. -/
  failed (f : StepFailure StepError) : f ∈ failures ↔
    (∃ v ∈ visits, v.step ∈ added ∧ v.failure? = some f) ∨
      ∃ e, initial.chosen = .error e ∧ f = ⟨"channel-configurator", 300, .channel e⟩

lemma generate_costs {memory : MemorySettings} {c c' : Context}
    (h : (c.generate memory).result = .ok c') :
    List.Forall₂ (fun m cost => cost.member = m.name ∧
      cost.entity = entityName c.request.top m.name) c.program.members c'.costs := by
  obtain ⟨-, table, -, -, gs, hgs, layout, -, rfl⟩ := generate_eq_ok.mp h
  refine List.forall₂_map_right_iff.mpr (hgs.imp fun m g hg => ?_)
  obtain ⟨-, body, -, entity, -, rfl⟩ := generateMember_eq_ok.mp hg
  exact ⟨rfl, rfl⟩

lemma conclude_completed {memory : MemorySettings} {s : Session (Workspace τ)}
    (hs : s.cancelled = false) (report : RunReport StepError) :
    (Compiler.conclude memory s (.ok (.completed report))).2 =
      (Representation.ofContext memory s.context.context).map (.completed · report.failures) := by
  simp only [Compiler.conclude, hs]
  cases Representation.ofContext memory s.context.context <;> rfl

section

variable {added : List (CompileStep τ)} {initial c' : Context} {memory : MemorySettings}
  {files : FileTree} {paths : List String}

lemma channelResult_eq_error {e : StepError} :
    initial.channelResult = .error e ↔ ∃ e', initial.chosen = .error e' ∧ e = .channel e' := by
  unfold Context.channelResult
  cases initial.chosen <;> simp [Except.map, Except.mapError, eq_comm]

/-- Of the steps that every compiler has, only the choice of the channel can have failed if the
artifact was written. -/
lemma mem_failuresIn_worked {worked : List (Visit MemorySettings (Workspace τ) StepError)}
    {f : StepFailure StepError} (hsteps : worked.map (·.step) = Compiler.ownSteps)
    (hended : worked.map (·.ended) = [initial.channelResult, .ok (), .ok ()].map .finished) :
    f ∈ failuresIn worked ↔
      ∃ e, initial.chosen = .error e ∧ f = ⟨"channel-configurator", 300, .channel e⟩ := by
  simp only [Compiler.ownSteps, List.map_eq_cons_iff, List.map_eq_nil_iff] at hsteps
  obtain ⟨v, -, rfl, hv, u, -, rfl, -, w, -, rfl, -, rfl⟩ := hsteps
  simp only [List.map_cons, List.map_nil, List.cons.injEq, and_true] at hended
  obtain ⟨hchosen, hgenerated, hwritten⟩ := hended
  have hv' : v.failure? = some f ↔
      ∃ e, initial.channelResult = .error e ∧ f = ⟨"channel-configurator", 300, e⟩ := by
    unfold Visit.failure?
    rw [hchosen, hv]
    cases initial.channelResult <;> simp [CompileStep.channel, Step.immediate, eq_comm]
  have hu : u.failure? = none := by simp [Visit.failure?, hgenerated]
  have hw : w.failure? = none := by simp [Visit.failure?, hwritten]
  simp only [failuresIn, List.mem_filterMap, List.mem_cons, List.not_mem_nil, or_false,
    exists_eq_or_imp, exists_eq_left, hu, hw, reduceCtorEq, hv', channelResult_eq_error]
  constructor
  · rintro ⟨e, ⟨e', hchosen, rfl⟩, rfl⟩
    exact ⟨e', hchosen, rfl⟩
  · rintro ⟨e, hchosen, rfl⟩
    exact ⟨_, ⟨e, hchosen, rfl⟩, rfl⟩

lemma ofContext_of_error {e : GenerationError} (hpaths : initial.program.assemblyPaths = .ok paths)
    (hchannel : initial.channel = none) (hdescription : initial.description = none)
    (h : (initial.generate memory).result = .error e) :
    Representation.ofContext memory (play memory CompileStep.ownEffects (initial, files)).1.1 =
      .error (.incomplete "a hardware description") := by
  rw [play_of_error hchannel hdescription h]
  simp [Representation.ofContext, hpaths, hdescription]

lemma ofContext_of_not_accepts (hpaths : initial.program.assemblyPaths = .ok paths)
    (hchannel : initial.channel = none) (himplementation : initial.implementation = none)
    (h : (initial.generate memory).result = .ok c')
    (haccepts : ¬ files.Accepts initial.request.outputDir initial.artifactPath) :
    Representation.ofContext memory (play memory CompileStep.ownEffects (initial, files)).1.1 =
      .error (.incomplete "an implementation artifact") := by
  obtain ⟨changed, e, hplay⟩ := play_of_not_accepts hchannel h haccepts
  obtain ⟨-, table, -, -, gs, -, layout, -, rfl⟩ := generate_eq_ok.mp h
  rw [hplay]
  simp [Representation.ofContext, Context.described, hpaths, himplementation]

lemma exists_delivered {visits worked : List (Visit MemorySettings (Workspace τ) StepError)}
    (hpaths : initial.program.assemblyPaths = .ok paths) (hchannel : initial.channel = none)
    (h : (initial.generate memory).result = .ok c')
    (haccepts : files.Accepts initial.request.outputDir initial.artifactPath)
    (hworked : Woven (fun v => v.step ∈ added) worked visits)
    (hsteps : worked.map (·.step) = Compiler.ownSteps)
    (hended : worked.map (·.ended) =
      (play memory CompileStep.ownEffects (initial, files)).2.map .finished) :
    ∃ r, Representation.ofContext memory
        (play memory CompileStep.ownEffects (initial, files)).1.1 = .ok r ∧
      Delivered added initial memory visits
        (play memory CompileStep.ownEffects (initial, files)).1.2 r (failuresIn visits) := by
  obtain ⟨d, written, hd, hlanguage, hread, hplay⟩ := play_of_accepts hchannel h haccepts
  have hprogram : c'.program = initial.program := by
    obtain ⟨-, table, -, -, gs, -, layout, -, rfl⟩ := generate_eq_ok.mp h
    rfl
  rw [hplay] at hended ⊢
  refine ⟨_, ofContext_eq_ok.mpr ⟨paths, d, _, hprogram ▸ hpaths, hd, rfl, rfl⟩, ?_⟩
  exact
    { assemblies := hpaths
      settings := rfl
      generated := ⟨c', h, hd, rfl, rfl⟩
      vhdl := hlanguage
      costs := generate_costs h
      file := hread
      implementation := rfl
      channel := rfl
      order := rfl
      failed := fun f => by
        rw [hworked.mem_failuresIn (P := (· ∈ added)), mem_failuresIn_worked hsteps hended] }

end

/-! ## How compilations end -/

section

variable {policy : FailurePolicy} {added steps : List (CompileStep τ)} {initial : Context}
  {memory : MemorySettings} {files changed : FileTree} {paths : List String}
  {visits : List (Visit MemorySettings (Workspace τ) StepError)}

/-- A design can be generated and written. -/
def Buildable (initial : Context) (memory : MemorySettings) (files : FileTree) : Prop :=
  (∃ c', (initial.generate memory).result = .ok c') ∧
    files.Accepts initial.request.outputDir initial.artifactPath

variable (policy added initial memory files changed visits) in
/-- How a compilation with the given visits ends if added steps only look on or fail. -/
inductive Settled : Except CompileError CompileOutcome → Prop
  | undescribed {e : GenerationError} (h : (initial.generate memory).result = .error e) :
      Settled (.error (.incomplete "a hardware description"))
  | unwritten {c' : Context} (h : (initial.generate memory).result = .ok c')
      (haccepts : ¬ files.Accepts initial.request.outputDir initial.artifactPath) :
      Settled (.error (.incomplete "an implementation artifact"))
  | delivered {r : Representation} (h : Buildable initial memory files)
      (hr : Delivered added initial memory visits changed r (failuresIn visits))
      (hclean : policy = .abort → failuresIn visits = []) :
      Settled (.ok (.completed r (failuresIn visits)))
  /-- A step failed, and the policy is to stop then. -/
  | aborted {v : Visit MemorySettings (Workspace τ) StepError} {f : StepFailure StepError}
      (hpolicy : policy = .abort) (hv : v ∈ visits) (hf : v.failure? = some f)
      (hcause : (∃ u ∈ visits, u.step ∈ added ∧ u.failure?.isSome = true) ∨
        ¬ (Buildable initial memory files ∧ ∃ channel, initial.chosen = .ok channel)) :
      Settled (.error (.pipeline (.stepFailed f)))

/-- None of the three steps fails if a design can be generated and written, and there is a
channel. -/
lemma error_not_mem_play {error : StepError} (hchannel : initial.channel = none)
    (h : Buildable initial memory files) (hchosen : ∃ channel, initial.chosen = .ok channel) :
    .error error ∉ (play memory CompileStep.ownEffects (initial, files)).2 := by
  obtain ⟨⟨c', hgenerate⟩, haccepts⟩ := h
  obtain ⟨channel, hchosen⟩ := hchosen
  obtain ⟨d, written, -, -, -, hplay⟩ := play_of_accepts hchannel hgenerate haccepts
  simp [hplay, Context.channelResult, hchosen, Except.map, Except.mapError]

lemma Runs.settled {s final : Session (Workspace τ)} {e : RunEnd StepError}
    (hadded : ∀ step ∈ added, step.Observes Workspace.stock)
    (hsteps : Woven (· ∈ added) Compiler.ownSteps steps)
    (h : Runs policy memory steps s visits final e) (hs : s.cancelled = false)
    (hinitial : s.context.stock = (initial, files))
    (hpaths : initial.program.assemblyPaths = .ok paths) (hchannel : initial.channel = none)
    (hdescription : initial.description = none) (himplementation : initial.implementation = none) :
    Settled policy added initial memory files final.context.files visits
      (Compiler.conclude memory final (e.answer ⟨executedIn visits, failuresIn visits⟩)).2 := by
  have hwoven := h.woven hadded hsteps CompileStep.ownSteps_actsBy hs
  rw [hinitial] at hwoven
  obtain ⟨hgoes, hout⟩ := hwoven
  cases hout with
  | completed hview hworked hown hended =>
      -- The run completed, so stock is taken of what the three steps have made.
      have hcontext : final.context.context = _ := congrArg Prod.fst hview
      have hfiles : final.context.files = _ := congrArg Prod.snd hview
      have hclean := (h.completed_iff.mp rfl).2.2
      rw [RunEnd.answer, conclude_completed hgoes, hcontext, hfiles]
      cases hgenerate : (initial.generate memory).result with
      | error e =>
          rw [ofContext_of_error hpaths hchannel hdescription hgenerate]
          exact .undescribed hgenerate
      | ok c' =>
          by_cases haccepts : files.Accepts initial.request.outputDir initial.artifactPath
          · obtain ⟨r, hr, hdelivered⟩ :=
              exists_delivered hpaths hchannel hgenerate haccepts hworked hown hended
            rw [hr]
            exact .delivered ⟨⟨c', hgenerate⟩, haccepts⟩ hdelivered fun hpolicy =>
              failuresIn_eq_nil.mpr (hclean hpolicy)
          · rw [ofContext_of_not_accepts hpaths hchannel himplementation hgenerate haccepts]
            exact .unwritten hgenerate haccepts
  | stopped hpolicy hcause =>
      obtain ⟨earlier, v, hvisits, -, hv⟩ := h.blame rfl
      have hmem : v ∈ visits := by simp [hvisits]
      refine .aborted hpolicy hmem hv (hcause.imp_right ?_)
      rintro ⟨error, herror⟩ ⟨hbuildable, hchosen⟩
      exact error_not_mem_play hchannel hbuildable hchosen herror

variable {result : Except CompileError CompileOutcome}

lemma Settled.completed_iff
    (h : Settled policy added initial memory files changed visits result) :
    (∃ r failures, result = .ok (.completed r failures)) ↔
      Buildable initial memory files ∧
        (policy = .abort → (∃ channel, initial.chosen = .ok channel) ∧
          ∀ v ∈ visits, v.step ∈ added → v.failure? = none) := by
  cases h with
  | undescribed h => simp [Buildable, h]
  | unwritten h haccepts => simp [Buildable, haccepts]
  | @delivered r hbuildable hr hclean =>
      refine ⟨fun _ => ⟨hbuildable, fun hpolicy => ?_⟩, fun _ => ⟨r, _, rfl⟩⟩
      have hnone := hclean hpolicy
      refine ⟨?_, fun v hv _ => failuresIn_eq_nil.mp hnone v hv⟩
      cases hchosen : initial.chosen with
      | ok channel => exact ⟨channel, rfl⟩
      | error e =>
          have hmem := (hr.failed _).mpr (.inr ⟨e, hchosen, rfl⟩)
          rw [hnone] at hmem
          contradiction
  | aborted hpolicy hv hf hcause =>
      refine ⟨by simp, fun ⟨hbuildable, hclean⟩ => ?_⟩
      obtain ⟨hchosen, hnone⟩ := hclean hpolicy
      rcases hcause with ⟨u, hu, hstep, hfails⟩ | hnot
      · rw [hnone u hu hstep] at hfails
        contradiction
      · exact absurd ⟨hbuildable, hchosen⟩ hnot

lemma Settled.delivered_of {r : Representation} {failures : List (StepFailure StepError)}
    (h : Settled policy added initial memory files changed visits result)
    (hresult : result = .ok (.completed r failures)) :
    Delivered added initial memory visits changed r failures := by
  cases h with
  | delivered _ hr =>
      cases hresult
      exact hr
  | undescribed => cases hresult
  | unwritten => cases hresult
  | aborted => cases hresult

/-- A compilation that goes on after failures lacks what could not be made. -/
lemma Settled.incomplete (h : Settled policy added initial memory files changed visits result)
    (hpolicy : policy = .proceed) :
    (∀ e, (initial.generate memory).result = .error e →
      result = .error (.incomplete "a hardware description")) ∧
    (∀ c', (initial.generate memory).result = .ok c' →
      ¬ files.Accepts initial.request.outputDir initial.artifactPath →
      result = .error (.incomplete "an implementation artifact")) := by
  cases h with
  | undescribed h => simp [h]
  | unwritten h => simp [h]
  | delivered hbuildable =>
      obtain ⟨⟨c', hgenerate⟩, haccepts⟩ := hbuildable
      simp [hgenerate, haccepts]
  | aborted habort =>
      rw [hpolicy] at habort
      contradiction

end

/-- **A compilation completes exactly if the design was generated and written**, as long as added
steps only look on or fail; with a policy to stop at a failure, the channel has to be there as well,
and none of the added steps may fail.  The visits to the steps account for it. -/
theorem compile_completion (registry : Registry) (policy : FailurePolicy)
    (added : List (CompileStep τ)) (program : Program) (request : Request) (files : FileTree)
    (extra : τ) {paths : List String} {device : Device} {memory : MemorySettings}
    (hadded : ∀ step ∈ added, step.Observes Workspace.stock)
    (hpaths : program.assemblyPaths = .ok paths)
    (hdevice : (registry.find request.device).result = .ok device)
    (hmemory : (registry.memoryFor request).result = .ok memory) :
    let c := (Compiler.new registry policy).extend added
    let initial : Context := { program, request, device }
    let done := c.compile program request false files extra
    ∃ visits final answer,
      Account c.pipeline memory (startSession program request device false files extra) visits final
        answer ∧
      done = ⟨done.notes, final.cancelled, final.context.files, final.context.extra,
        (Compiler.conclude memory final answer).2⟩ ∧
      ((∃ r failures, done.result = .ok (.completed r failures)) ↔
        Buildable initial memory files ∧
          (policy = .abort → (∃ channel, initial.chosen = .ok channel) ∧
            ∀ v ∈ visits, v.step ∈ added → v.failure? = none)) ∧
      (∀ r failures, done.result = .ok (.completed r failures) →
        visits.map (·.step) = c.pipeline.steps ∧
          Delivered added initial memory visits done.files r failures) ∧
      (policy = .proceed →
        (∀ e, (initial.generate memory).result = .error e →
          done.result = .error (.incomplete "a hardware description")) ∧
        (∀ c', (initial.generate memory).result = .ok c' →
          ¬ files.Accepts initial.request.outputDir initial.artifactPath →
          done.result = .error (.incomplete "an implementation artifact"))) := by
  intro c initial done
  have hpolicy : c.pipeline.policy = policy := by simp only [c, extend_new]
  have hregistry : c.registry = registry := by simp only [c, extend_new]
  have hmemory' : (c.registry.memoryFor request).result = .ok memory := hregistry ▸ hmemory
  have hprepared : (c.prepare program request).result = .ok (device, memory) :=
    prepare_eq_ok.mpr ⟨⟨paths, hpaths⟩, hregistry ▸ hdevice, hmemory'⟩
  obtain ⟨visits, final, e, notes, hruns, hdone⟩ := compile_runs hprepared false files extra
  have hsettled : Settled policy added initial memory files done.files visits done.result := by
    simp only [done, hdone]
    exact (hpolicy ▸ hruns).settled hadded (extend_woven registry policy added) rfl rfl hpaths rfl
      rfl rfl
  refine ⟨visits, final, _, hruns.account, ?_, hsettled.completed_iff, fun r failures hresult => ?_,
    hsettled.incomplete⟩
  · simp only [done, hdone]
  · have hreliable : Reliable c request _ visits final r failures :=
      hruns.reliable hmemory' (by simpa only [done, hdone] using hresult)
    exact ⟨hreliable.order, hsettled.delivered_of hresult⟩

lemma refuse_observes : CompileStep.refuse.Observes Workspace.stock := by
  intro memory v hstep hv
  obtain ⟨hafter, -⟩ := hv.immediate hstep hv.1
  rw [hafter]
  exact ⟨hv.1, rfl⟩

/-- A compilation for a device without channels, with an added step that fails, completes, and the
file is there; without members it lacks a description. -/
theorem compile_completion_refused :
    (∃ memory visits r failures,
      (((Compiler.new ⟨[.bench]⟩ .proceed).extend [.refuse]).compile .sample
        { device := "Bench" } false {} ()).result = .ok (.completed r failures) ∧
      failures.map (·.step) = ["refuse", "channel-configurator"] ∧
      Delivered [.refuse]
        { program := .sample, request := { device := "Bench" }, device := .bench } memory visits
        (((Compiler.new ⟨[.bench]⟩ .proceed).extend [.refuse]).compile .sample
          { device := "Bench" } false {} ()).files r failures) ∧
    (((Compiler.new ⟨[.bench]⟩ .proceed).extend [.refuse]).compile ⟨[.file "filter.dll"], []⟩
      { device := "Bench" } false {} ()).result
        = .error (.incomplete "a hardware description") := by
  have hadded : ∀ step ∈ [CompileStep.refuse], step.Observes Workspace.stock :=
    List.forall_mem_singleton.mpr refuse_observes
  obtain ⟨memory, hmemory⟩ :
      ∃ memory, ((⟨[.bench]⟩ : Registry).memoryFor { device := "Bench" }).result = .ok memory :=
    ⟨_, rfl⟩
  constructor
  · obtain ⟨r, failures, hresult, hnames, -⟩ := exists_of_completedWith
      (show completedWith (((Compiler.new ⟨[.bench]⟩ .proceed).extend [.refuse]).compile .sample
          { device := "Bench" } false {} ()).result
        = some (["refuse", "channel-configurator"], ["filter.dll"]) by decide +kernel)
    obtain ⟨visits, -, -, -, -, -, hdelivered, -⟩ := compile_completion ⟨[.bench]⟩ .proceed
      [.refuse] .sample { device := "Bench" } {} () hadded rfl rfl hmemory
    exact ⟨memory, visits, r, failures, hresult, hnames, (hdelivered r failures hresult).2⟩
  · obtain ⟨-, -, -, -, -, -, -, hincomplete⟩ := compile_completion ⟨[.bench]⟩ .proceed [.refuse]
      ⟨[.file "filter.dll"], []⟩ { device := "Bench" } {} () hadded rfl rfl hmemory
    exact (hincomplete rfl).1 .noMembers rfl

end Gateware
