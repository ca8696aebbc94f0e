import Gateware.Compile.Compiler
import Gateware.Proofs.Action
import Gateware.Proofs.Files.Tree
import Gateware.Proofs.Generation.Inversion
import Gateware.Proofs.Pipeline.Interleaving

/-!
# What the steps of a compilation do

Of a workspace only the context and the files count in the end (`Workspace.stock`).  Each of the
three steps that every compiler has acts on these alone: `CompileStep.ownSteps_actsBy` gives the
effect of each as a function.

The steps change the context in its place, and two of them can fail at many points.  None of them
has changed anything in the context by then (`configureChannel_failsQuietly`,
`describe_failsQuietly`, `writeArtifact_failsQuietly`): a step first makes sure of all it needs, and
then puts its results into the context in a row.  The files are another matter, and `Written` tells
what can become of them.

What the three do in a row to a context without results comes down to whether a description can be
generated and whether it can be written: `play_of_error`, `play_of_not_accepts` and
`play_of_accepts`.  Generation does not depend on the channel, so it does not matter whether one
could be chosen.
-/

namespace Gateware

variable {τ : Type}

@[simp] lemma Session.perform_cancelled {σ ε : Type} {s : Session σ} {action : Action σ ε Unit} :
    (s.perform action).1.cancelled = s.cancelled := rfl

/-! ## The effects of the steps -/

namespace CompileStep

/-- The effect of an action on the context. -/
def contextEffect {ε : Type} (wrap : ε → StepError) (action : Action Context ε Unit)
    (k : Context × FileTree) : (Context × FileTree) × Except StepError Unit :=
  (((action k.1).1, k.2), (action k.1).2.result.mapError wrap)

/-- The effect of choosing the channel. -/
def channelEffect (_ : MemorySettings) (k : Context × FileTree) :
    (Context × FileTree) × Except StepError Unit :=
  contextEffect .channel Context.configureChannel k

/-- The effect of generating the description. -/
def generationEffect (memory : MemorySettings) (k : Context × FileTree) :
    (Context × FileTree) × Except StepError Unit :=
  contextEffect .generation (Context.describe memory) k

/-- The effect of writing the artifact. -/
def artifactEffect (_ : MemorySettings) (k : Context × FileTree) :
    (Context × FileTree) × Except StepError Unit :=
  ((Context.writeArtifact false k).1, (Context.writeArtifact false k).2.result.mapError .artifact)

/-- The effects of the steps that every compiler has. -/
def ownEffects : List (MemorySettings → Context × FileTree →
    (Context × FileTree) × Except StepError Unit) :=
  [channelEffect, generationEffect, artifactEffect]

lemma perform_onContext {ε : Type} (s : Session (Workspace τ)) (action : Action Context ε Unit)
    (wrap : ε → StepError) :
    ((s.perform ((onContext action).mapError wrap)).1.context.stock,
        (s.perform ((onContext action).mapError wrap)).2) =
      contextEffect wrap action s.context.stock :=
  congrArg (Prod.mk _) (Traced.result_mapError wrap _)

lemma immediate_actsBy {ε : Type} (name : String) (priority : Float)
    (action : MemorySettings → Action Context ε Unit) (wrap : ε → StepError) :
    (Step.immediate name priority fun memory s =>
      s.perform ((onContext (action memory)).mapError wrap) : CompileStep τ).ActsBy
        Workspace.stock fun memory k => contextEffect wrap (action memory) k := by
  intro memory v hstep hv
  obtain ⟨hafter, hend⟩ := hv.immediate hstep (by simpa using hv.1)
  obtain ⟨hstock, hresult⟩ := Prod.mk.inj (perform_onContext v.before (action memory) wrap)
  rw [hafter, hend, Session.perform_cancelled, hstock, hresult]
  exact ⟨hv.1, rfl, rfl⟩

lemma build_effect {s : Session (Workspace τ)} (hs : s.cancelled = false)
    (memory : MemorySettings) :
    ((build s).1.context.stock, (build s).2) = artifactEffect memory s.context.stock := by
  rw [build, hs]
  exact congrArg (Prod.mk _) (Traced.result_mapError StepError.artifact _)

lemma artifact_actsBy : (artifact : CompileStep τ).ActsBy Workspace.stock artifactEffect := by
  intro memory v hstep hv
  obtain ⟨hafter, hend⟩ := hv.deferred hstep
  obtain ⟨hstock, hresult⟩ := Prod.mk.inj (build_effect hv.1 memory)
  have hgoes : (build v.before).1.cancelled = false := by simpa [build] using hv.1
  rw [hafter, hend, hstock, hresult]
  exact ⟨hgoes, rfl, rfl⟩

lemma ownSteps_actsBy :
    List.Forall₂ (Step.ActsBy Workspace.stock) (Compiler.ownSteps : List (CompileStep τ))
      ownEffects :=
  .cons (immediate_actsBy _ _ (fun _ => Context.configureChannel) .channel)
    (.cons (immediate_actsBy _ _ Context.describe .generation) (.cons artifact_actsBy .nil))

end CompileStep

/-! ## Steps that fail -/

lemma configureChannel_failsQuietly : Context.configureChannel.FailsQuietly id := by
  refine Action.keeps_get.bind_failsQuietly fun c => ?_
  refine Action.keeps_lift.bind_failsQuietly fun channel => ?_
  exact (Action.succeeds_note.bind fun _ => Action.succeeds_modify).failsQuietly

/-- Generation fails before it changes anything, even if there is too little memory for what has
been generated. -/
lemma describe_failsQuietly (memory : MemorySettings) :
    (Context.describe memory).FailsQuietly id := by
  refine Action.keeps_get.bind_failsQuietly fun c => ?_
  split_ifs
  · exact Action.keeps_lift.failsQuietly
  · refine Action.keeps_lift.bind_failsQuietly fun table => ?_
    refine Action.keeps_lift.bind_failsQuietly fun gs => ?_
    refine Action.keeps_lift.bind_failsQuietly fun layout => ?_
    -- from here on nothing can fail
    refine (Action.succeeds_modify.bind fun _ => ?_).failsQuietly
    exact Action.succeeds_note.bind fun _ => Action.succeeds_modify.bind fun _ =>
      Action.succeeds_modify

lemma keeps_changeFiles {change : FileTree → FileTree × Except FileError Unit}
    {wrap : FileError → ArtifactError} : (changeFiles change wrap).Keeps Prod.fst := fun _ => rfl

/-- Files may have been changed by then, but not the context. -/
lemma writeArtifact_failsQuietly (cancelled : Bool) :
    (Context.writeArtifact cancelled).FailsQuietly Prod.fst := by
  refine Action.keeps_get.bind_failsQuietly fun k => ?_
  refine Action.keeps_lift.bind_failsQuietly fun d => ?_
  refine keeps_changeFiles.bind_failsQuietly fun _ => ?_
  refine keeps_changeFiles.bind_failsQuietly fun _ => ?_
  split_ifs
  · refine keeps_changeFiles.bind_failsQuietly fun _ => ?_
    exact Action.succeeds_note.failsQuietly
  · exact (Action.succeeds_note.bind fun _ => Action.succeeds_modify).failsQuietly

/-! ## Generating without a channel -/

/-- The channel plays no part in generation. -/
lemma generate_withChannel (memory : MemorySettings) (c : Context) (channel : Option String) :
    (Context.generate memory { c with channel }).result =
      (c.generate memory).result.map fun c' => { c' with channel } := by
  have hmodel : ∀ table, Context.costModel { c with channel } table = c.costModel table :=
    fun _ => rfl
  rw [generate_result, generate_result]
  simp only [hmodel]
  split_ifs
  · rfl
  · cases c.device.delays.result with
    | error e => rfl
    | ok table =>
        simp only [Except.mapError, Except.bind]
        cases (generateMembers (c.costModel table) c.request.top [] c.program.members).result with
        | error e => rfl
        | ok gs =>
            simp only
            cases memory.plan (largestCells gs) c.device.manifest <;> rfl

/-! ## Writing -/

/-- What becomes of a context and of files when the artifact is written, and with which result. -/
inductive Written (c : Context) (files : FileTree) (cancelled : Bool) :
    Context × FileTree → Except ArtifactError Unit → Prop
  | unbuildable {e : ArtifactError} (hd : c.buildable = .error e) :
      Written c files cancelled (c, files) (.error e)
  | unmade {d : Description} {made : FileTree} {e : FileError} (hd : c.buildable = .ok d)
      (hmade : files.makeDirectories c.request.outputDir = (made, .error e)) :
      Written c files cancelled (c, made) (.error (.write c.request.outputDir e))
  | unwritten {d : Description} {made : FileTree} {e : FileError} (hd : c.buildable = .ok d)
      (hmade : files.makeDirectories c.request.outputDir = (made, .ok ()))
      (hwritten : made.write c.artifactPath d.source = .error e) :
      Written c files cancelled (c, made) (.error (.write c.artifactPath e))
  | unremoved {d : Description} {made written : FileTree} {e : FileError}
      (hd : c.buildable = .ok d)
      (hmade : files.makeDirectories c.request.outputDir = (made, .ok ()))
      (hwritten : made.write c.artifactPath d.source = .ok written) (hcancelled : cancelled = true)
      (hremoved : written.remove c.artifactPath = .error e) :
      Written c files cancelled (c, written) (.error (.remove c.artifactPath e))
  | removed {d : Description} {made written removed : FileTree} (hd : c.buildable = .ok d)
      (hmade : files.makeDirectories c.request.outputDir = (made, .ok ()))
      (hwritten : made.write c.artifactPath d.source = .ok written) (hcancelled : cancelled = true)
      (hremoved : written.remove c.artifactPath = .ok removed) :
      Written c files cancelled (c, removed) (.ok ())
  | kept {d : Description} {made written : FileTree} (hd : c.buildable = .ok d)
      (hmade : files.makeDirectories c.request.outputDir = (made, .ok ()))
      (hwritten : made.write c.artifactPath d.source = .ok written)
      (hcancelled : cancelled = false) :
      Written c files cancelled
        ({ c with implementation := some ⟨c.artifactPath, d.fingerprint⟩ }, written) (.ok ())

lemma FileTree.settle_eq_ok {t changed : FileTree} {attempt : Except FileError FileTree}
    (h : t.settle attempt = (changed, .ok ())) : attempt = .ok changed := by
  cases attempt with
  | ok t' =>
      cases h
      rfl
  | error e => cases h

lemma FileTree.settle_eq_error {t changed : FileTree} {attempt : Except FileError FileTree}
    {e : FileError} (h : t.settle attempt = (changed, .error e)) :
    changed = t ∧ attempt = .error e := by
  cases attempt with
  | ok t' => cases h
  | error e' =>
      cases h
      exact ⟨rfl, rfl⟩

/-- A change to the files fails, or the rest goes on with what it has made of them. -/
lemma changeFiles_bind_cases {P : Context × FileTree → Except ArtifactError Unit → Prop}
    {change : FileTree → FileTree × Except FileError Unit} {wrap : FileError → ArtifactError}
    {rest : Unit → Action (Context × FileTree) ArtifactError Unit} {c : Context} {files : FileTree}
    (herror : ∀ changed e, change files = (changed, .error e) → P (c, changed) (.error (wrap e)))
    (hok : ∀ changed, change files = (changed, .ok ()) →
      P (rest () (c, changed)).1 (rest () (c, changed)).2.result) :
    P ((changeFiles change wrap >>= rest) (c, files)).1
      ((changeFiles change wrap >>= rest) (c, files)).2.result := by
  rcases hchange : change files with ⟨changed, result⟩
  have hrun : changeFiles change wrap (c, files) =
      ((c, changed), .ofExcept (result.mapError wrap)) := by
    simp only [changeFiles, hchange]
  refine Action.bind_cases (fun e he => ?_) fun a ha => ?_
  · rw [hrun] at he ⊢
    obtain ⟨e', rfl, rfl⟩ := mapError_eq_error.mp he
    exact herror changed e' hchange
  · rw [hrun] at ha ⊢
    cases mapError_eq_ok.mp ha
    exact hok changed hchange

lemma writeArtifact_written (k : Context × FileTree) (cancelled : Bool) :
    Written k.1 k.2 cancelled (Context.writeArtifact cancelled k).1
      (Context.writeArtifact cancelled k).2.result := by
  obtain ⟨c, files⟩ := k
  refine Action.bind_cases (P := Written c files cancelled) (fun e he => by cases he) ?_
  rintro _ ⟨⟩
  refine Action.bind_cases (P := Written c files cancelled) (fun e he => .unbuildable he) ?_
  intro d (hd : c.buildable = .ok d)
  dsimp only [Action.get, Action.lift]
  refine changeFiles_bind_cases (P := Written c files cancelled) (fun made e hmade => ?_)
    fun made hmade => ?_
  · exact .unmade hd hmade
  refine changeFiles_bind_cases (P := Written c files cancelled) (fun changed e hwritten => ?_)
    fun written hwritten => ?_
  · obtain ⟨rfl, hwritten⟩ := FileTree.settle_eq_error hwritten
    exact .unwritten hd hmade hwritten
  · replace hwritten := FileTree.settle_eq_ok hwritten
    split_ifs with hcancelled
    · refine changeFiles_bind_cases (P := Written c files cancelled)
        (fun changed e hremoved => ?_) fun removed hremoved => ?_
      · obtain ⟨rfl, hremoved⟩ := FileTree.settle_eq_error hremoved
        exact .unremoved hd hmade hwritten hcancelled hremoved
      · exact .removed hd hmade hwritten hcancelled (FileTree.settle_eq_ok hremoved)
    · exact .kept hd hmade hwritten (by simpa using hcancelled)

section

variable {c : Context} {files : FileTree} {cancelled : Bool} {k : Context × FileTree}
  {result : Except ArtifactError Unit}

lemma buildable_eq_ok {d : Description} :
    c.buildable = .ok d ↔ c.description = some d ∧ d.language = .vhdl := by
  unfold Context.buildable
  cases c.description with
  | none => simp
  | some d' =>
      simp only [guard_eq_ok, beq_iff_eq, Option.some.injEq]
      constructor
      · rintro ⟨hlanguage, rfl⟩
        exact ⟨rfl, hlanguage⟩
      · rintro ⟨rfl, hlanguage⟩
        exact ⟨hlanguage, rfl⟩

/-- Nothing is touched if there is nothing to write. -/
lemma Written.of_none (h : Written c files cancelled k result) (hd : c.description = none) :
    k = (c, files) ∧ result = .error .noDescription := by
  have hbuildable : c.buildable = .error .noDescription := by simp [Context.buildable, hd]
  cases h with
  | unbuildable hd' =>
      cases hbuildable.symm.trans hd'
      exact ⟨rfl, rfl⟩
  | unmade hd' | unwritten hd' | unremoved hd' | removed hd' | kept hd' =>
      cases hbuildable.symm.trans hd'

/-- A description that can be written is, and can be read again. -/
lemma Written.of_accepts {d : Description} (h : Written c files false k result)
    (hd : c.buildable = .ok d)
    (haccepts : files.Accepts c.request.outputDir c.artifactPath) :
    k.1 = { c with implementation := some ⟨c.artifactPath, d.fingerprint⟩ } ∧
      k.2.read c.artifactPath = .ok d.source ∧ result = .ok () := by
  obtain ⟨made, hmade, location, hlocate, hnode⟩ := haccepts
  have hwritten : made.write c.artifactPath d.source = .ok _ :=
    FileTree.write_eq_ok.mpr ⟨location, hlocate, hnode, rfl⟩
  cases h with
  | unbuildable hd' => cases hd.symm.trans hd'
  | unmade _ hmade' => cases hmade.symm.trans hmade'
  | unwritten hd' hmade' hwritten' =>
      cases hd.symm.trans hd'
      cases hmade.symm.trans hmade'
      cases hwritten.symm.trans hwritten'
  | unremoved _ _ _ hcancelled | removed _ _ _ hcancelled => cases hcancelled
  | kept hd' hmade' hwritten' =>
      cases hd.symm.trans hd'
      exact ⟨rfl, FileTree.read_of_write hwritten', rfl⟩

lemma Written.of_not_accepts (h : Written c files false k result)
    (haccepts : ¬ files.Accepts c.request.outputDir c.artifactPath) :
    k.1 = c ∧ ∃ e, result = .error e := by
  cases h with
  | unbuildable | unmade | unwritten => exact ⟨rfl, _, rfl⟩
  | unremoved _ _ _ hcancelled | removed _ _ _ hcancelled => cases hcancelled
  | kept _ hmade hwritten =>
      obtain ⟨location, hlocate, hnode, -⟩ := FileTree.write_eq_ok.mp hwritten
      exact absurd ⟨_, hmade, location, hlocate, hnode⟩ haccepts

end

/-! ## The steps in a row -/

/-- The channel for a context. -/
def Context.chosen (c : Context) : Except ChannelError String :=
  chooseChannel c.device.manifest c.request.channel

/-- The result of choosing the channel. -/
def Context.channelResult (c : Context) : Except StepError Unit :=
  (c.chosen.mapError .channel).map fun _ => ()

section

open CompileStep

variable {memory : MemorySettings} {c c' : Context} {files : FileTree}

section

variable {ε : Type} {wrap : ε → StepError} {action : Action Context ε Unit}

lemma contextEffect_of_ok (h : (action.outcome c).result = .ok c') :
    contextEffect wrap action (c, files) = ((c', files), .ok ()) := by
  obtain ⟨hresult, hcontext⟩ := Action.outcome_eq_ok.mp h
  simp only [contextEffect, hresult, hcontext]
  rfl

lemma contextEffect_of_error {e : ε} (hquiet : action.FailsQuietly id)
    (h : (action.outcome c).result = .error e) :
    contextEffect wrap action (c, files) = ((c, files), .error (wrap e)) := by
  have hresult := Action.outcome_eq_error.mp h
  have hcontext : (action c).1 = c := hquiet c e hresult
  simp only [contextEffect, hresult, hcontext]
  rfl

end

lemma configureChannel_result (c : Context) :
    (Context.configureChannel.outcome c).result =
      c.chosen.map fun name => { c with channel := some name } := by
  simp only [Context.configureChannel, Action.outcome_get_bind, Action.result_lift_bind,
    Action.result_note_bind, Action.result_modify, Traced.result_ofExcept]
  change Except.bind c.chosen _ = _
  cases c.chosen <;> rfl

lemma channelEffect_eq (hchannel : c.channel = none) :
    channelEffect memory (c, files) =
      (({ c with channel := c.chosen.toOption }, files), c.channelResult) := by
  have hconfigured := configureChannel_result c
  unfold Context.channelResult
  cases hchosen : c.chosen with
  | ok name =>
      rw [hchosen] at hconfigured
      exact contextEffect_of_ok hconfigured
  | error e =>
      rw [hchosen] at hconfigured
      have hsame : { c with channel := none } = c := by rw [← hchannel]
      have heffect : channelEffect memory (c, files) = ((c, files), .error (.channel e)) :=
        contextEffect_of_error configureChannel_failsQuietly hconfigured
      simp [heffect, Except.map, Except.mapError, Except.toOption, hsame]

/-- Nothing is written if no description can be generated. -/
lemma play_of_error {e : GenerationError} (hchannel : c.channel = none)
    (hdescription : c.description = none) (h : (c.generate memory).result = .error e) :
    play memory ownEffects (c, files) =
      (({ c with channel := c.chosen.toOption }, files),
        [c.channelResult, .error (.generation e), .error (.artifact .noDescription)]) := by
  let c₁ : Context := { c with channel := c.chosen.toOption }
  have hgenerate := generate_withChannel memory c c.chosen.toOption
  rw [h] at hgenerate
  have hgeneration : generationEffect memory (c₁, files) = ((c₁, files), .error (.generation e)) :=
    contextEffect_of_error (describe_failsQuietly memory) hgenerate
  obtain ⟨hstock, hresult⟩ := (writeArtifact_written (c₁, files) false).of_none hdescription
  have hartifact : artifactEffect memory (c₁, files) =
      ((c₁, files), .error (.artifact .noDescription)) := by
    simp only [artifactEffect, hstock, hresult]
    rfl
  simp only [play, ownEffects, channelEffect_eq hchannel]
  rw [hgeneration, hartifact]

lemma exists_description (h : (c.generate memory).result = .ok c') :
    ∃ d, c'.description = some d ∧ d.language = .vhdl ∧ c'.request = c.request := by
  obtain ⟨-, table, -, -, gs, -, layout, -, rfl⟩ := generate_eq_ok.mp h
  exact ⟨_, rfl, rfl, rfl⟩

lemma play_generated (hchannel : c.channel = none) (h : (c.generate memory).result = .ok c') :
    play memory ownEffects (c, files) =
      let (k, result) := artifactEffect memory ({ c' with channel := c.chosen.toOption }, files)
      (k, [c.channelResult, .ok (), result]) := by
  let c₁ : Context := { c with channel := c.chosen.toOption }
  have hgenerate := generate_withChannel memory c c.chosen.toOption
  rw [h] at hgenerate
  have hgeneration : generationEffect memory (c₁, files) =
      (({ c' with channel := c.chosen.toOption }, files), .ok ()) :=
    contextEffect_of_ok hgenerate
  simp only [play, ownEffects, channelEffect_eq hchannel]
  rw [hgeneration]

lemma artifactEffect_eq {k : Context × FileTree} {context : Context}
    {result : Except ArtifactError Unit} (hcontext : (Context.writeArtifact false k).1.1 = context)
    (hresult : (Context.writeArtifact false k).2.result = result) :
    artifactEffect memory k =
      ((context, (Context.writeArtifact false k).1.2), result.mapError .artifact) := by
  rw [artifactEffect, hresult, ← hcontext]

/-- A description that cannot be written is generated all the same. -/
lemma play_of_not_accepts (hchannel : c.channel = none) (h : (c.generate memory).result = .ok c')
    (haccepts : ¬ files.Accepts c.request.outputDir c.artifactPath) :
    ∃ changed e, play memory ownEffects (c, files) =
      (({ c' with channel := c.chosen.toOption }, changed),
        [c.channelResult, .ok (), .error (.artifact e)]) := by
  obtain ⟨-, -, -, hrequest⟩ := exists_description h
  let c₂ : Context := { c' with channel := c.chosen.toOption }
  have hnot : ¬ files.Accepts c₂.request.outputDir c₂.artifactPath := by
    simpa only [c₂, Context.artifactPath, hrequest] using haccepts
  obtain ⟨hcontext, e, hresult⟩ := (writeArtifact_written (c₂, files) false).of_not_accepts hnot
  refine ⟨(Context.writeArtifact false (c₂, files)).1.2, e, ?_⟩
  rw [play_generated hchannel h, artifactEffect_eq hcontext hresult]
  rfl

/-- A description that can be generated and written is. -/
lemma play_of_accepts (hchannel : c.channel = none) (h : (c.generate memory).result = .ok c')
    (haccepts : files.Accepts c.request.outputDir c.artifactPath) :
    ∃ d written, c'.description = some d ∧ d.language = .vhdl ∧
      written.read c.artifactPath = .ok d.source ∧
      play memory ownEffects (c, files) =
        (({ c' with
            channel := c.chosen.toOption
            implementation := some ⟨c.artifactPath, d.fingerprint⟩ }, written),
          [c.channelResult, .ok (), .ok ()]) := by
  obtain ⟨d, hd, hlanguage, hrequest⟩ := exists_description h
  let c₂ : Context := { c' with channel := c.chosen.toOption }
  have hpath : c₂.artifactPath = c.artifactPath := by
    simp only [c₂, Context.artifactPath, hrequest]
  have hthere : files.Accepts c₂.request.outputDir c₂.artifactPath := by
    simpa only [c₂, Context.artifactPath, hrequest] using haccepts
  obtain ⟨hcontext, hread, hresult⟩ :=
    (writeArtifact_written (c₂, files) false).of_accepts (buildable_eq_ok.mpr ⟨hd, hlanguage⟩)
      hthere
  rw [hpath] at hcontext hread
  refine ⟨d, (Context.writeArtifact false (c₂, files)).1.2, hd, hlanguage, hread, ?_⟩
  rw [play_generated hchannel h, artifactEffect_eq hcontext hresult]
  rfl

end

end Gateware
