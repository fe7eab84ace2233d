import Montage.Proofs.Job.Images
import Montage.Proofs.Render.Isolation

/-! Failures that come again. An edit or its assets are found to be at fault before anything is run, so
that such a failure is the same whatever would have run and whenever it would have been stopped. -/
namespace Montage.Job

variable {α : Type} {load : AssetId → Except StorageError Bytes} {options : AssemblyOptions}
  {e : Edit}

/-- A job that has called nothing would be the same with any other adapter. -/
theorem render_eq_of_call {adapter : Adapter α} {elapsed : Binary64}
    (uncalled : (render load adapter options elapsed e).call = none) :
    ∃ err metrics, ∀ {β : Type} (other : Adapter β) (elapsed : Binary64),
      render load other options elapsed e = failure e err metrics := by
  simp only [render] at uncalled
  split at uncalled
  · rename_i err metrics failed
    refine ⟨.render err, metrics, fun other elapsed => ?_⟩
    simp only [render, failed]
  · rename_i command metrics assembled
    split at uncalled
    · rename_i err failed
      refine ⟨.storage err, metrics, fun other elapsed => ?_⟩
      simp only [render, assembled, failed]
    · cases uncalled

theorem result_of_call {adapter : Adapter α} {elapsed : Binary64} {r : ExecutionRequest} {left : α}
    (called : (render load adapter options elapsed e).call = some (r, left)) :
    (render load adapter options elapsed e).result = (adapter r).1.mapError .render := by
  obtain ⟨command, assembled, loaded, -⟩ := call_render_eq_some_iff.1 called
  simp only [render]
  split
  · rename_i failed
    rw [failed] at assembled
    cases assembled
  · rename_i same
    rw [same] at assembled
    cases assembled
    rw [loaded]

theorem IsRequest.missing?_eq_none {r : ExecutionRequest} (h : IsRequest load options e r) :
    r.missing? = none := by
  obtain ⟨files, collected⟩ := h.exists_stagedImages
  exact ExecutionRequest.missing?_eq_none_of_stagedFiles
    (ExecutionRequest.stagedFiles_eq_ok_iff.2 ⟨files, collected, rfl⟩)

/-- What fails once it is run does not fail by its inputs: a job has bytes for all of them. -/
theorem IsRequest.not_isInvalidInput {r : ExecutionRequest} (h : IsRequest load options e r)
    {x : Executor} {watch : Watch} {engine : Machine} {suffix : String} {t : FileTree}
    {err : RenderError} (failed : (x.execute r watch engine suffix t).result = .error err) :
    err.isInvalidInput = false := by
  cases x.fails failed with
  | lacking _ i found => cases h.missing?_eq_none.symm.trans found
  | cancelled => rfl
  | engineNotFound => rfl
  | engineFailed => rfl
  | fileNotFound => rfl
  | io => rfl
  | timeout => rfl

/-- If a failure is one of the inputs, then it is that of every run, and no executor is reached. -/
theorem invalid_inputs_fail_alike (load : AssetId → Except StorageError Bytes)
    (options : AssemblyOptions) (e : Edit) (x : Executor) (watch : Watch) (engine : Machine)
    (suffix : String) (t : FileTree) (elapsed : Binary64) (err : JobError)
    (failed : (render load (x.adapter watch engine suffix t) options elapsed e).result = .error err)
    (invalid : err.isInvalidInput = true) :
    (render load (x.adapter watch engine suffix t) options elapsed e).call = none ∧
    ∀ (x' : Executor) (watch' : Watch) (engine' : Machine) (suffix' : String) (t' : FileTree)
      (elapsed' : Binary64),
      let again := render load (x'.adapter watch' engine' suffix' t') options elapsed' e
      again.result = .error err ∧ again.call = none ∧
        again = render load (x.adapter watch engine suffix t) options elapsed e := by
  have uncalled : (render load (x.adapter watch engine suffix t) options elapsed e).call = none := by
    cases called : (render load (x.adapter watch engine suffix t) options elapsed e).call with
    | none => rfl
    | some call =>
      obtain ⟨r, left⟩ := call
      rw [result_of_call called, mapError_eq_error_iff] at failed
      obtain ⟨cause, unmade, rfl⟩ := failed
      have blameless := (isRequest_of_call called).not_isInvalidInput unmade
      cases blameless.symm.trans invalid
  refine ⟨uncalled, ?_⟩
  intro x' watch' engine' suffix' t' elapsed'
  obtain ⟨cause, metrics, same⟩ := render_eq_of_call uncalled
  have first := same (x.adapter watch engine suffix t) elapsed
  have again := same (x'.adapter watch' engine' suffix' t') elapsed'
  rw [first] at failed
  rw [again, first]
  exact ⟨failed, rfl, rfl⟩

def loadClip (id : AssetId) : Except StorageError Bytes :=
  if id = "clip" then .ok (Bytes.ofText "clip") else .error (.notFound id)

/-- The photo is missing without an engine, too, and when the signal is on before anything is run. -/
theorem absent_photo_fails_alike :
    let quiet := render loadClip (Executor.temporary.adapter .never .idle "x" .temporary) {} 0 .untitled
    let stopped := render loadClip
      (Executor.temporary.adapter { onEntry := true } (fun _ => none) "y" {}) {} 3 .untitled
    quiet.result = .error (.storage (.notFound "asset")) ∧ quiet.call = none ∧
      stopped.result = .error (.storage (.notFound "asset")) ∧ stopped.call = none := by
  have failed : (render loadClip (Executor.temporary.adapter .never .idle "x" .temporary) {} 0
      .untitled).result = .error (.storage (.notFound "asset")) := by
    decide +kernel
  obtain ⟨uncalled, alike⟩ := invalid_inputs_fail_alike loadClip {} .untitled .temporary .never .idle
    "x" .temporary 0 _ failed rfl
  obtain ⟨again, unreached, -⟩ := alike .temporary { onEntry := true } (fun _ => none) "y" {} 3
  exact ⟨failed, uncalled, again, unreached⟩

end Montage.Job
