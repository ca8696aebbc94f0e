import Gateware.Proofs.Compile.Completion

/-!
# What a cancelled compilation leaves behind

Only one step of a compilation writes a file, if the added steps do not.  It takes back what it has
written if it finds the compilation cancelled, but it is the last to do so: a step that comes later
may cancel the compilation as well, and then the artifact stays where it is, although no result is
handed out.

So the files of a cancelled compilation are as they were exactly unless the artifact was written
before; directories may have been made.  `Leftovers` says this in terms of the visits of the run,
and `cancelled_late` is a compilation in which the artifact stays.
-/

namespace Gateware

/-! ## Runs that change a view once -/

section

variable {ρ σ ε κ : Type}

/-- A step leaves what `view` shows as it was.  It may well cancel the run. -/
def Step.Keeps (view : σ → κ) (step : Step ρ σ ε) : Prop :=
  ∀ (env : ρ) (v : Visit ρ σ ε), v.step = step → v.Made env →
    view v.after.context = view v.before.context

variable {env : ρ} {s t : Session σ} {visits : List (Visit ρ σ ε)} {view : σ → κ}
  {step : Step ρ σ ε}

lemma Visited.kept (h : Visited env s visits t) (hw : ∀ v ∈ visits, v.step.Keeps view) :
    view t.context = view s.context := by
  induction h with
  | none ht => rw [ht.1]
  | next hs hv _ ih =>
      obtain ⟨hfirst, hlater⟩ := List.forall_mem_cons.mp hw
      rw [ih hlater, hfirst env _ rfl hv, hs.1]

/-- If all steps but one keep the view, it is in the end what that step has left. -/
lemma Visited.changed_once (h : Visited env s visits t)
    (hw : Woven (Step.Keeps view) [step] (visits.map (·.step))) :
    ∃ v ∈ visits, v.step = step ∧ view v.before.context = view s.context ∧
      view t.context = view v.after.context ∧
      ∀ u ∈ visits, u = v ∨ u.step.Keeps view := by
  induction h with
  | none => cases hw
  | @next s t v visits hs hv hrest ih =>
      cases hw with
      | kept hlater =>
          have hkeeps : ∀ u ∈ visits, u.step.Keeps view := by
            intro u hu
            rcases hlater.mem_or (List.mem_map_of_mem hu) with hnone | hkeeps
            · cases hnone
            · exact hkeeps
          refine ⟨v, List.mem_cons_self, rfl, by rw [hs.1], hrest.kept hkeeps, ?_⟩
          exact List.forall_mem_cons.mpr ⟨.inl rfl, fun u hu => .inr (hkeeps u hu)⟩
      | strewn hkeeps hlater =>
          obtain ⟨u, hu, hstep, hbefore, hafter, hothers⟩ := ih hlater
          refine ⟨u, List.mem_cons_of_mem v hu, hstep, ?_, hafter, ?_⟩
          · rw [hbefore, hkeeps env v rfl hv, hs.1]
          · exact List.forall_mem_cons.mpr ⟨.inr hkeeps, hothers⟩

end

variable {τ : Type}

/-! ## The step that writes -/

namespace CompileStep

lemma immediate_keeps_files {ε : Type} (name : String) (priority : Float)
    (action : MemorySettings → Action Context ε Unit) (wrap : ε → StepError) :
    (Step.immediate name priority fun memory s =>
      s.perform ((onContext (action memory)).mapError wrap) : CompileStep τ).Keeps
        Workspace.files := by
  intro memory v hstep hv
  obtain ⟨-, hstock, -⟩ := immediate_actsBy name priority action wrap memory v hstep hv
  exact congrArg Prod.snd hstock

/-- A visit to the step that writes. -/
lemma artifact_made {memory : MemorySettings} {v : Visit MemorySettings (Workspace τ) StepError}
    (hstep : v.step = artifact) (hv : v.Made memory) :
    ∃ k result, Written v.before.context.context v.before.context.files false k result ∧
      v.after.context.files = k.2 ∧ v.ended = .finished (result.mapError .artifact) := by
  obtain ⟨-, hstock, hend⟩ := artifact_actsBy memory v hstep hv
  exact ⟨_, _, writeArtifact_written v.before.context.stock false, congrArg Prod.snd hstock, hend⟩

/-- The step that writes can be visited with any workspace. -/
lemma exists_artifact_made (memory : MemorySettings) (w : Workspace τ) :
    ∃ v : Visit MemorySettings (Workspace τ) StepError,
      v.step = artifact ∧ v.before.context = w ∧ v.Made memory := by
  let s : Session (Workspace τ) := ⟨w, false, []⟩
  exact ⟨⟨artifact, s, (build s).1, .finished (build s).2⟩, rfl, rfl, rfl, s, _, rfl,
    .worked rfl rfl⟩

/-- Where there is something to write, it is written. -/
lemma artifact_not_keeps (extra : τ) : ¬ (artifact : CompileStep τ).Keeps Workspace.files := by
  intro hkeeps
  obtain ⟨c, hwritten⟩ : ∃ c, (Context.writeArtifact false (c, {})).1.2.nodes ≠ [] :=
    ⟨{ Context.sample with description := some ⟨"entity", .vhdl⟩ }, by decide +kernel⟩
  obtain ⟨v, hstep, hbefore, hv⟩ := exists_artifact_made {} ⟨c, {}, extra⟩
  have hfiles : v.after.context.files = v.before.context.files := hkeeps {} v hstep hv
  obtain ⟨-, hstock, -⟩ := artifact_actsBy {} v hstep hv
  have hafter := congrArg Prod.snd hstock
  simp only [Workspace.stock, artifactEffect, hfiles, hbefore] at hafter
  exact hwritten (by rw [← hafter])

end CompileStep

/-- An attempt to write that fails leaves the files as they were. -/
lemma Written.sameFiles {c : Context} {files : FileTree} {k : Context × FileTree}
    {e : ArtifactError} (h : Written c files false k (.error e)) : k.2.SameFiles files := by
  have hsame := files.makeDirectories_sameFiles c.request.outputDir
  cases h with
  | unbuildable => exact .refl files
  | unmade _ hmade | unwritten _ hmade =>
      rw [hmade] at hsame
      exact hsame
  | unremoved _ _ _ hcancelled => cases hcancelled

/-! ## Leftovers -/

/-- What is left of the files after some visits to steps. -/
structure Leftovers (visits : List (Visit MemorySettings (Workspace τ) StepError))
    (files left : FileTree) : Prop where
  /-- If the artifact was not written, all files are as they were. -/
  discarded : (∀ v ∈ visits, v.step = CompileStep.artifact → v.ended ≠ .finished (.ok ())) →
    left.SameFiles files
  /-- If it was written, it is still there, and the other files are as they were. -/
  kept (v : Visit MemorySettings (Workspace τ) StepError) : v ∈ visits →
    v.step = CompileStep.artifact → v.ended = .finished (.ok ()) →
    ∃ d location, v.before.context.context.description = some d ∧
      left.read v.before.context.context.artifactPath = .ok d.source ∧
      left.locate v.before.context.context.artifactPath = .ok location ∧
      ∀ other content, other ≠ location →
        (left.node? other = some (.file content) ↔ files.node? other = some (.file content))

/-- What is left of the files where the artifact was written. -/
lemma Written.leaves {c : Context} {files : FileTree} {k : Context × FileTree}
    (h : Written c files false k (.ok ())) :
    ∃ d location, c.description = some d ∧ k.2.read c.artifactPath = .ok d.source ∧
      k.2.locate c.artifactPath = .ok location ∧
      ∀ other content, other ≠ location →
        (k.2.node? other = some (.file content) ↔ files.node? other = some (.file content)) := by
  cases h with
  | removed _ _ _ hcancelled => cases hcancelled
  | @kept d made written hd hmade hwritten =>
      have hsame := files.makeDirectories_sameFiles c.request.outputDir
      rw [hmade] at hsame
      have hread := FileTree.read_of_write hwritten
      obtain ⟨location, hlocate, hnode, rfl⟩ := FileTree.write_eq_ok.mp hwritten
      refine ⟨d, location, (buildable_eq_ok.mp hd).1, hread, FileTree.locate_put hnode hlocate,
        fun other content hne => ?_⟩
      rw [FileTree.node?_put_of_ne hne]
      exact hsame other content

lemma Runs.leftovers {policy : FailurePolicy} {memory : MemorySettings}
    {steps : List (CompileStep τ)} {s final : Session (Workspace τ)}
    {visits : List (Visit MemorySettings (Workspace τ) StepError)} {e : RunEnd StepError}
    (h : Runs policy memory steps s visits final e)
    (hsteps : Woven (Step.Keeps Workspace.files) [CompileStep.artifact] steps) :
    Leftovers visits s.context.files final.context.files := by
  obtain ⟨front, hfront, hw⟩ := hsteps.exists_of_prefix h.order
  rcases List.prefix_cons_iff.mp hfront with rfl | ⟨rest, rfl, hrest⟩
  · -- The step that writes was not called.
    have hkeeps : ∀ v ∈ visits, v.step.Keeps Workspace.files := by
      intro v hv
      rcases hw.mem_or (List.mem_map_of_mem hv) with hnone | hkeeps
      · cases hnone
      · exact hkeeps
    have hfiles : final.context.files = _ := h.visited.kept hkeeps
    refine ⟨fun _ => hfiles ▸ .refl _, fun v hv hstep => ?_⟩
    exact absurd (hstep ▸ hkeeps v hv) (CompileStep.artifact_not_keeps v.before.context.extra)
  · rw [List.prefix_nil.mp hrest] at hw
    obtain ⟨v, hv, hstep, hbefore, hafter, hothers⟩ := h.visited.changed_once hw
    obtain ⟨k, result, hwritten, hfiles, hend⟩ :=
      CompileStep.artifact_made hstep (h.visited.made v hv)
    rw [hbefore] at hwritten
    rw [hafter, hfiles]
    -- No other visit is one to the step that writes.
    have hunique : ∀ u ∈ visits, u.step = CompileStep.artifact → u = v := by
      intro u hu hustep
      refine (hothers u hu).resolve_right fun hkeeps => ?_
      exact CompileStep.artifact_not_keeps u.before.context.extra (hustep ▸ hkeeps)
    cases result with
    | error e =>
        refine ⟨fun _ => hwritten.sameFiles, fun u hu hustep hok => ?_⟩
        rw [hunique u hu hustep, hend] at hok
        cases hok
    | ok _ =>
        refine ⟨fun hnone => absurd hend (hnone v hv hstep), fun u hu hustep _ => ?_⟩
        rw [hunique u hu hustep]
        exact hwritten.leaves

/-! ## Cancelled compilations -/

/-- All steps but one keep the files, if the added ones do. -/
lemma extend_keeps_files (registry : Registry) (policy : FailurePolicy)
    {added : List (CompileStep τ)} (hadded : ∀ step ∈ added, step.Keeps Workspace.files) :
    Woven (Step.Keeps Workspace.files) [CompileStep.artifact]
      ((Compiler.new registry policy).extend added).pipeline.steps := by
  have hw := (extend_woven registry policy added).imp hadded
  have hchannel : (CompileStep.channel : CompileStep τ).Keeps Workspace.files :=
    CompileStep.immediate_keeps_files _ _ (fun _ => Context.configureChannel) .channel
  have hgeneration : (CompileStep.generation : CompileStep τ).Keeps Workspace.files :=
    CompileStep.immediate_keeps_files _ _ Context.describe .generation
  exact (hw.release hchannel).release hgeneration

/-- **A cancelled compilation leaves the files as they were, unless the artifact was written
before.**  An artifact that was written stays. -/
theorem cancelled_compilation_leftovers (registry : Registry) (policy : FailurePolicy)
    (added : List (CompileStep τ)) (hadded : ∀ step ∈ added, step.Keeps Workspace.files)
    (program : Program) (request : Request) (cancelled : Bool) (files : FileTree) (extra : τ) :
    let c := (Compiler.new registry policy).extend added
    let done := c.compile program request cancelled files extra
    done.result = .ok .cancelled →
      ∃ device memory visits final answer,
        (registry.find request.device).result = .ok device ∧
        (registry.memoryFor request).result = .ok memory ∧
        Account c.pipeline memory (startSession program request device cancelled files extra) visits
          final answer ∧
        done.result = (Compiler.conclude memory final answer).2 ∧
        Leftovers visits files done.files := by
  intro c done hcancelled
  rcases hprepared : (c.prepare program request).result with e | ⟨device, memory⟩
  · have hdone := compile_of_unfit (prepare_eq_error.mp hprepared) cancelled files extra
    simp only [done, hdone] at hcancelled
    cases hcancelled
  · have hregistry : c.registry = registry := by simp only [c, extend_new]
    obtain ⟨-, hdevice, hmemory⟩ := prepare_eq_ok.mp hprepared
    rw [hregistry] at hdevice hmemory
    obtain ⟨visits, final, e, notes, hruns, hdone⟩ := compile_runs hprepared cancelled files extra
    refine ⟨device, memory, visits, final, _, hdevice, hmemory, hruns.account, ?_, ?_⟩
    · simp only [done, hdone]
    · simp only [done, hdone]
      exact hruns.leftovers (extend_keeps_files registry policy hadded)

/-! ## A sample -/

/-- A step that cancels the compilation after the artifact has been written. -/
def CompileStep.cancelLate : CompileStep Unit := .deferred "late" 50 fun _ s => (s.cancel, .ok ())

lemma CompileStep.cancelLate_keeps_files : CompileStep.cancelLate.Keeps Workspace.files := by
  intro memory v hstep hv
  obtain ⟨hafter, -⟩ := hv.deferred hstep
  rw [hafter]
  rfl

/-- The sample program, compiled with that step. -/
def cancelledSample : Compilation Unit :=
  ((Compiler.new ⟨[.bench]⟩ .proceed).extend [.cancelLate]).compile .sample { device := "Bench" }
    false {} ()

lemma cancelledSample_result : cancelledSample.result = .ok .cancelled := by
  have hok : cancelledSample.result.toOption.isSome = true := by decide +kernel
  have hincomplete : completedWith cancelledSample.result = none := by decide +kernel
  cases hresult : cancelledSample.result with
  | error e =>
      rw [hresult] at hok
      cases hok
  | ok outcome =>
      cases outcome with
      | completed r failures =>
          rw [hresult] at hincomplete
          cases hincomplete
      | cancelled => rfl

/-- What is left of the sample is accounted for by the visits. -/
theorem cancelled_compilation_leftovers_late :
    ∃ device memory visits final answer,
      (Registry.find ⟨[.bench]⟩ "Bench").result = .ok device ∧
      Account ((Compiler.new ⟨[.bench]⟩ .proceed).extend [.cancelLate]).pipeline memory
        (startSession .sample { device := "Bench" } device false {} ()) visits final answer ∧
      cancelledSample.result = (Compiler.conclude memory final answer).2 ∧
      Leftovers visits {} cancelledSample.files := by
  have hadded : ∀ step ∈ [CompileStep.cancelLate], step.Keeps Workspace.files := by
    intro step hstep
    rw [List.mem_singleton.mp hstep]
    exact CompileStep.cancelLate_keeps_files
  obtain ⟨device, memory, visits, final, answer, hdevice, -, haccount, hresult, hleft⟩ :=
    cancelled_compilation_leftovers ⟨[.bench]⟩ .proceed [.cancelLate] hadded .sample
      { device := "Bench" } false {} () cancelledSample_result
  exact ⟨device, memory, visits, final, answer, hdevice, haccount, hresult, hleft⟩

/-- A compilation is cancelled, and a file is there that was not there before. -/
theorem cancelled_late :
    cancelledSample.result = .ok .cancelled ∧
      FileTree.read {} "build/kiln_hardware.vhd" = .error .notFound ∧
      ∃ source, cancelledSample.files.read "build/kiln_hardware.vhd" = .ok source := by
  refine ⟨cancelledSample_result, by decide +kernel, ?_⟩
  have hread : (cancelledSample.files.read "build/kiln_hardware.vhd").toOption.isSome = true := by
    decide +kernel
  cases hfile : cancelledSample.files.read "build/kiln_hardware.vhd" with
  | ok source => exact ⟨source, rfl⟩
  | error e =>
      rw [hfile] at hread
      cases hread

end Gateware
