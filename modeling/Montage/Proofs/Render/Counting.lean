import Montage.Proofs.Render.Attempt

/-! What is counted of an execution and of the assembling before it. The run of an engine and the
execution around it are counted apart, each once: an engine may succeed where the execution is
cancelled after it or finds no output. -/
namespace Montage

def Metric.under (name : String) (metrics : List Metric) : List Metric :=
  metrics.filter fun m => m.name = name

namespace Outcome

structure IsOfResult (o : Outcome) (result : Except RenderError Output) : Prop where
  success : o = .success ↔ ∃ output, result = .ok output
  cancelled : o = .cancelled ↔ result = .error .cancelled
  failed : o = .failed ↔ ∃ err, result = .error err ∧ err ≠ .cancelled

structure IsOfCompletion (o : Outcome) (c : Completion) : Prop where
  success : o = .success ↔ c = .exited (some 0)
  cancelled : o = .cancelled ↔ c = .cancelled
  timeout : o = .timeout ↔ ∃ seconds, c = .deadline seconds
  failed : o = .failed ↔ ∃ code, c = .exited code ∧ code ≠ some 0

end Outcome

theorem Run.isOfCompletion_outcome (c : Completion) : (Run.outcome c).IsOfCompletion c := by
  cases c with
  | cancelled => constructor <;> simp [outcome]
  | deadline seconds => constructor <;> simp [outcome]
  | exited code => by_cases success : code = some 0 <;> constructor <;> simp [outcome, success]

/-- What is recorded of an engine: nothing unless it was started, and else one run and one duration. -/
def Run.Records (course : Option Course) (launch : Option Launch) (metrics : List Metric) : Prop :=
  match launch with
  | none => metrics = []
  | some _ => ∃ done, course = some done ∧
      metrics = [.engineRun (outcome done.completion), .engineDuration (outcome done.completion)]

theorem Command.run_records (c : Command) (isCancelled : Bool) (course : Option Course)
    (dir : Location) (t : FileTree) :
    Run.Records course (c.run isCancelled course dir t).launch
      (c.run isCancelled course dir t).metrics := by
  cases isCancelled with
  | true => rfl
  | false =>
    cases course with
    | none => rfl
    | some done =>
      simp only [run]
      cases Run.refusal? c.runArguments with
      | some cause => rfl
      | none => exact ⟨done, rfl, rfl⟩

namespace Executor

theorem stageAndRun_records (x : Executor) (r : ExecutionRequest) (watch : Watch)
    (course : Option Course) (s : Staging) (files : List (String × Bytes)) (t : FileTree) :
    Run.Records course (x.stageAndRun r watch course s files t).launch
      (x.stageAndRun r watch course s files t).metrics := by
  rw [stageAndRun]
  cases stageFiles s.route files t with
  | error cause => rfl
  | ok staged => exact Command.run_records ..

theorem attempt_records (x : Executor) (r : ExecutionRequest) (watch : Watch)
    (course : Option Course) (suffix : String) (t : FileTree) :
    Run.Records course (x.attempt r watch course suffix t).launch
      (x.attempt r watch course suffix t).metrics := by
  rw [attempt]
  cases watch.onEntry with
  | true => rfl
  | false =>
    cases r.stagedFiles with
    | error err => rfl
    | ok files =>
      change Run.Records course (x.runApart r watch course suffix files t).launch
        (x.runApart r watch course suffix files t).metrics
      rw [runApart]
      rcases x.makeWorkDir t with ⟨made, cause | above⟩
      · rfl
      · dsimp only
        cases makeStaging (x.staging suffix above) made with
        | error cause => rfl
        | ok fresh => exact x.stageAndRun_records ..

def sizeRecords : Except RenderError Output → List Metric
  | .ok output => [.outputBytes output.bytes.length]
  | .error _ => []

theorem exists_metricsOf_eq (result : Except RenderError Output) :
    ∃ o : Outcome, o.IsOfResult result ∧ metricsOf result = .execution o :: sizeRecords result := by
  cases result with
  | ok output => exact ⟨.success, by constructor <;> simp, rfl⟩
  | error err =>
    by_cases stopped : err = .cancelled
    · subst stopped
      exact ⟨.cancelled, by constructor <;> simp, rfl⟩
    · refine ⟨.failed, by constructor <;> simp [stopped], ?_⟩
      cases err
      case cancelled => exact absurd rfl stopped
      all_goals rfl

structure IsCounted (e : Execution) (course : Option Course) : Prop where
  execution : ∃ o, o.IsOfResult e.result ∧
    Metric.under "vedit_executions_total" e.metrics = [.execution o]
  output : Metric.under "vedit_output_bytes" e.metrics = sizeRecords e.result
  run : match e.launch with
    | none => Metric.under "vedit_ffmpeg_runs_total" e.metrics = [] ∧
        Metric.under "vedit_ffmpeg_duration_seconds" e.metrics = []
    | some _ => ∃ done o, course = some done ∧ o.IsOfCompletion done.completion ∧
        Metric.under "vedit_ffmpeg_runs_total" e.metrics = [.engineRun o] ∧
        Metric.under "vedit_ffmpeg_duration_seconds" e.metrics = [.engineDuration o]

theorem isCounted_execute (x : Executor) (r : ExecutionRequest) (watch : Watch) (engine : Machine)
    (suffix : String) (t : FileTree) :
    IsCounted (x.execute r watch engine suffix t) (engine x.timeout) := by
  have records := x.attempt_records r watch (engine x.timeout) suffix t
  obtain ⟨o, label, counted⟩ :=
    exists_metricsOf_eq (x.attempt r watch (engine x.timeout) suffix t).result
  simp only [execute, counted]
  generalize x.attempt r watch (engine x.timeout) suffix t = e at records label
  obtain ⟨result, launch, tree, metrics⟩ := e
  cases launch with
  | none =>
    cases (records : metrics = [])
    constructor
    case execution => exact ⟨o, label, by cases result <;> rfl⟩
    case output => cases result <;> rfl
    case run => constructor <;> cases result <;> rfl
  | some launch =>
    obtain ⟨done, started, whole⟩ := records
    cases (whole : metrics = _)
    constructor
    case execution => exact ⟨o, label, by cases result <;> rfl⟩
    case output => cases result <;> rfl
    case run =>
      refine ⟨done, _, started, Run.isOfCompletion_outcome done.completion, ?_, ?_⟩
      · cases result <;> rfl
      · cases result <;> rfl

end Executor

theorem Edit.metrics_assemble (e : Edit) (o : AssemblyOptions) : (e.assemble o).metrics =
    match (e.assemble o).value with
    | .ok _ => [.graphCompiled, .commandAssembled "edit"]
    | .error _ => [] := by
  rw [assemble]
  rcases e.names o with err | ⟨source, output⟩
  · rfl
  · dsimp only
    rw [Filter.compile]
    cases Filter.graphOf o.fontDir (ImageInput.ofOverlays e.images) e.texts with
    | error err => rfl
    | ok graph => rfl

/-- Whatever happens to an execution, it is counted once and by its result, and an engine that was
started is counted once and by what was noticed of its end. Assembling is counted when it is complete. -/
theorem metrics_tell_what_happened (x : Executor) (r : ExecutionRequest) (watch : Watch)
    (engine : Machine) (suffix : String) (t : FileTree) (e : Edit) (o : AssemblyOptions) :
    Executor.IsCounted (x.execute r watch engine suffix t) (engine x.timeout) ∧
      (e.assemble o).metrics = match (e.assemble o).value with
        | .ok _ => [.graphCompiled, .commandAssembled "edit"]
        | .error _ => [] :=
  ⟨x.isCounted_execute r watch engine suffix t, e.metrics_assemble o⟩

end Montage
