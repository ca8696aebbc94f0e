import Gateware.Compile.Compiler
import Gateware.Proofs.Pipeline.Policy
import Gateware.Proofs.Results

/-!
# The stages of a compilation

A compilation checks its inputs (`prepare`), runs the pipeline, and takes stock (`conclude`).  The
lemmas here say for each stage exactly when it goes well and with which result; `compile_runs` puts
them together.

What makes inputs unfit is said by `Unfit` without the checks: the program has no assembly, or one
that is not a file; no device has the requested name; or the memory of the device cannot be set up.
The rules of `Unfit` come in the order in which the checks are made, and each assumes that the
earlier checks went well.
-/

namespace Gateware

/-! ## Assemblies -/

namespace Program

lemma filePaths_eq_ok : ∀ {assemblies : List Assembly} {paths : List String},
    filePaths assemblies = .ok paths ↔ assemblies = paths.map .file
  | [], paths => by simp [filePaths, eq_comm]
  | .inMemory name :: rest, paths => by cases paths <;> simp [filePaths]
  | .file path :: rest, paths => by
      simp only [filePaths, map_eq_ok, filePaths_eq_ok]
      constructor
      · rintro ⟨others, rfl, rfl⟩
        rfl
      · intro h
        cases paths with
        | nil => simp at h
        | cons first others =>
            obtain ⟨⟨rfl⟩, rfl⟩ := List.cons.inj h
            exact ⟨others, rfl, rfl⟩

/-- Assemblies are refused for the first of them that is not a file. -/
lemma filePaths_eq_error : ∀ {assemblies : List Assembly} {e : AssemblyError},
    filePaths assemblies = .error e ↔ ∃ paths name rest,
      assemblies = List.map .file paths ++ .inMemory name :: rest ∧ e = .inMemory name
  | [], e => by simp [filePaths]
  | .inMemory name :: rest, e => by
      constructor
      · rintro ⟨⟩
        exact ⟨[], name, rest, rfl, rfl⟩
      · rintro ⟨paths, name', rest', h, rfl⟩
        cases paths with
        | nil =>
            obtain ⟨⟨rfl⟩, rfl⟩ := List.cons.inj h
            rfl
        | cons first others => cases (List.cons.inj h).1
  | .file path :: rest, e => by
      simp only [filePaths, map_eq_error, filePaths_eq_error]
      constructor
      · rintro ⟨paths, name, others, rfl, rfl⟩
        exact ⟨path :: paths, name, others, rfl, rfl⟩
      · rintro ⟨paths, name, others, h, rfl⟩
        cases paths with
        | nil => cases (List.cons.inj h).1
        | cons first paths => exact ⟨paths, name, others, (List.cons.inj h).2, rfl⟩

variable {p : Program}

lemma assemblyPaths_eq_ok {paths : List String} :
    p.assemblyPaths = .ok paths ↔ paths ≠ [] ∧ p.assemblies = paths.map .file := by
  unfold assemblyPaths
  by_cases hempty : p.assemblies = []
  · cases paths <;> simp [hempty]
  · rw [if_neg (by simpa using hempty), filePaths_eq_ok]
    constructor
    · intro h
      refine ⟨?_, h⟩
      rintro rfl
      exact hempty h
    · exact And.right

lemma assemblyPaths_eq_error {e : AssemblyError} :
    p.assemblyPaths = .error e ↔ (p.assemblies = [] ∧ e = .none) ∨
      ∃ paths name rest, p.assemblies = List.map .file paths ++ .inMemory name :: rest ∧
        e = .inMemory name := by
  unfold assemblyPaths
  by_cases hempty : p.assemblies = []
  · cases e <;> simp [hempty]
  · rw [if_neg (by simpa using hempty), filePaths_eq_error]
    simp only [hempty, false_and, false_or]

end Program

/-! ## Inputs -/

lemma Registry.find_eq_error {r : Registry} {name : String} {e : DeviceError} :
    (r.find name).result = .error e ↔
      (∀ d ∈ r.devices, d.name ≠ name) ∧ e = .unknown name r.names := by
  unfold find
  cases hfind : r.devices.find? fun d => d.name == name with
  | none =>
      have hnone : ∀ d ∈ r.devices, d.name ≠ name := by simpa using hfind
      simp only [Traced.result_fail, Except.error.injEq]
      exact ⟨fun h => ⟨hnone, h.symm⟩, fun h => h.2.symm⟩
  | some d =>
      have hd : d ∈ r.devices := List.mem_of_find?_eq_some hfind
      have hname : d.name = name := by simpa using List.find?_some hfind
      simp only [Traced.result_bind, Traced.result_note, Traced.result_pure]
      constructor
      · rintro ⟨⟩
      · rintro ⟨hnone, -⟩
        exact absurd hname (hnone d hd)

/-- The inputs of a compilation are not fit for it. -/
inductive Unfit (registry : Registry) (program : Program) (request : Request) : CompileError → Prop
  /-- There are no assemblies. -/
  | empty (h : program.assemblies = []) : Unfit registry program request (.assembly .none)
  /-- An assembly is not a file, and is the first such. -/
  | inMemory {paths : List String} {name : String} {rest : List Program.Assembly}
      (h : program.assemblies = paths.map .file ++ .inMemory name :: rest) :
      Unfit registry program request (.assembly (.inMemory name))
  /-- No device has the requested name. -/
  | device {paths : List String} (hne : paths ≠ []) (hpaths : program.assemblies = paths.map .file)
      (h : ∀ d ∈ registry.devices, d.name ≠ request.device) :
      Unfit registry program request (.device (.unknown request.device registry.names))
  /-- The memory cannot be set up as requested. -/
  | memory {paths : List String} {d : Device} {e : DeviceError} (hne : paths ≠ [])
      (hpaths : program.assemblies = paths.map .file)
      (hdevice : (registry.find request.device).result = .ok d)
      (h : (registry.memoryFor request).result = .error e) :
      Unfit registry program request (.device e)

section

variable {τ : Type} {c : Compiler τ} {program : Program} {request : Request}

lemma prepare_eq_ok {device : Device} {memory : MemorySettings} :
    (c.prepare program request).result = .ok (device, memory) ↔
      (∃ paths, program.assemblyPaths = .ok paths) ∧
        (c.registry.find request.device).result = .ok device ∧
        (c.registry.memoryFor request).result = .ok memory := by
  simp only [Compiler.prepare, Traced.result_bind, Traced.result_mapError, Traced.result_ofExcept,
    Traced.result_note, Traced.result_pure, bind_eq_ok, mapError_eq_ok, Except.ok.injEq,
    Prod.mk.injEq]
  constructor
  · rintro ⟨paths, hpaths, device, hdevice, memory, hmemory, -, -, rfl, rfl⟩
    exact ⟨⟨paths, hpaths⟩, hdevice, hmemory⟩
  · rintro ⟨⟨paths, hpaths⟩, hdevice, hmemory⟩
    exact ⟨paths, hpaths, device, hdevice, memory, hmemory, (), trivial, rfl, rfl⟩

/-- Inputs are refused exactly if they are not fit, and for that reason. -/
lemma prepare_eq_error {e : CompileError} :
    (c.prepare program request).result = .error e ↔ Unfit c.registry program request e := by
  simp only [Compiler.prepare, Traced.result_bind, Traced.result_mapError, Traced.result_ofExcept,
    Traced.result_note, Traced.result_pure, bind_eq_error, mapError_eq_ok, mapError_eq_error]
  constructor
  · rintro (⟨e', h, rfl⟩ | ⟨paths, hpaths, ⟨e', h, rfl⟩ | ⟨d, hd, ⟨e', h, rfl⟩ | ⟨m, -, h⟩⟩⟩)
    · rcases Program.assemblyPaths_eq_error.mp h with ⟨hempty, rfl⟩ | ⟨paths, name, rest, hmem, rfl⟩
      · exact .empty hempty
      · exact .inMemory hmem
    · obtain ⟨hne, hpaths⟩ := Program.assemblyPaths_eq_ok.mp hpaths
      obtain ⟨hnone, rfl⟩ := Registry.find_eq_error.mp h
      exact .device hne hpaths hnone
    · obtain ⟨hne, hpaths⟩ := Program.assemblyPaths_eq_ok.mp hpaths
      exact .memory hne hpaths hd h
    · simp at h
  · rintro (h | h | ⟨hne, hpaths, h⟩ | ⟨hne, hpaths, hd, h⟩)
    · exact .inl ⟨_, Program.assemblyPaths_eq_error.mpr (.inl ⟨h, rfl⟩), rfl⟩
    · exact .inl ⟨_, Program.assemblyPaths_eq_error.mpr (.inr ⟨_, _, _, h, rfl⟩), rfl⟩
    · exact .inr ⟨_, Program.assemblyPaths_eq_ok.mpr ⟨hne, hpaths⟩,
        .inl ⟨_, Registry.find_eq_error.mpr ⟨h, rfl⟩, rfl⟩⟩
    · exact .inr ⟨_, Program.assemblyPaths_eq_ok.mpr ⟨hne, hpaths⟩,
        .inr ⟨_, hd, .inl ⟨_, h, rfl⟩⟩⟩

/-! ## Taking stock -/

/-- A context holds a result exactly if each of its parts is there. -/
lemma ofContext_eq_ok {memory : MemorySettings} {context : Context} {r : Representation} :
    Representation.ofContext memory context = .ok r ↔
      ∃ paths description implementation, context.program.assemblyPaths = .ok paths ∧
        context.description = some description ∧ context.implementation = some implementation ∧
        r = ⟨paths, description, implementation, context.device.manifest, memory, context.layout,
          context.channel, context.costs⟩ := by
  unfold Representation.ofContext
  cases context.program.assemblyPaths with
  | error e => simp
  | ok paths =>
      cases context.description with
      | none => simp
      | some description => cases context.implementation <;> simp [eq_comm]

lemma conclude_eq_completed {memory : MemorySettings} {s : Session (Workspace τ)}
    {answer : Except (PipelineError StepError) (RunOutcome StepError)} {r : Representation}
    {failures : List (StepFailure StepError)} :
    (Compiler.conclude memory s answer).2 = .ok (.completed r failures) ↔
      ∃ report, answer = .ok (.completed report) ∧ s.cancelled = false ∧
        Representation.ofContext memory s.context.context = .ok r ∧
        failures = report.failures := by
  rcases answer with e | report | executed
  · simp [Compiler.conclude]
  · unfold Compiler.conclude
    cases s.cancelled with
    | true => simp
    | false => cases Representation.ofContext memory s.context.context <;> simp [eq_comm]
  · simp [Compiler.conclude]

lemma conclude_same (memory : MemorySettings) (s : Session (Workspace τ))
    (answer : Except (PipelineError StepError) (RunOutcome StepError)) :
    s.Same (Compiler.conclude memory s answer).1 := by
  rcases answer with e | report | executed
  · exact .refl s
  · unfold Compiler.conclude
    cases s.cancelled with
    | true => exact Session.same_note ..
    | false =>
        cases Representation.ofContext memory s.context.context with
        | error e => exact .refl s
        | ok r => exact Session.same_note ..
  · exact Session.same_note ..

/-! ## Compilations -/

/-- The session with which the pipeline starts. -/
def startSession (program : Program) (request : Request) (device : Device) (cancelled : Bool)
    (files : FileTree) (extra : τ) : Session (Workspace τ) :=
  ⟨⟨{ program, request, device }, files, extra⟩, cancelled, []⟩

lemma compile_of_unfit {e : CompileError} (h : Unfit c.registry program request e)
    (cancelled : Bool) (files : FileTree) (extra : τ) :
    c.compile program request cancelled files extra =
      ⟨(c.prepare program request).notes, cancelled, files, extra, .error e⟩ := by
  simp only [Compiler.compile, prepare_eq_error.mpr h]

/-- With inputs that pass the checks the pipeline is run, and stock is taken of what it leaves. -/
lemma compile_runs {device : Device} {memory : MemorySettings}
    (h : (c.prepare program request).result = .ok (device, memory)) (cancelled : Bool)
    (files : FileTree) (extra : τ) :
    ∃ visits final e notes,
      Runs c.pipeline.policy memory c.pipeline.steps
        (startSession program request device cancelled files extra) visits final e ∧
      c.compile program request cancelled files extra =
        ⟨notes, final.cancelled, final.context.files, final.context.extra,
          (Compiler.conclude memory final
            (e.answer ⟨executedIn visits, failuresIn visits⟩)).2⟩ := by
  let start : Session (Workspace τ) :=
    ⟨⟨{ program, request, device }, files, extra⟩, cancelled, (c.prepare program request).notes⟩
  obtain ⟨visits, e, hruns, hanswer⟩ := c.pipeline.run_runs StepError.message memory start
  have hstart : (startSession program request device cancelled files extra).Same start := ⟨rfl, rfl⟩
  rcases hrun : c.pipeline.run StepError.message memory start with ⟨final, answer⟩
  rw [hrun] at hruns hanswer
  obtain ⟨hcontext, hcancelled⟩ := conclude_same memory final answer
  refine ⟨visits, final, e, (Compiler.conclude memory final answer).1.notes,
    hruns.of_same hstart, ?_⟩
  simp only [Compiler.compile, h]
  rw [hrun, ← hanswer, hcontext, hcancelled]

end

end Gateware
