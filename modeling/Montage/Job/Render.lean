import Montage.Edit.Document
import Montage.Job.Log
import Montage.Render.Execution

/-! Render jobs. The edit is assembled before any asset is loaded, the source is loaded before the
images, and an adapter is handed everything at once. Any failure ends the job. -/
namespace Montage

/-- What runs an assembled edit, and what else it leaves behind. -/
abbrev Adapter (α : Type) := ExecutionRequest → Except RenderError Output × α

/-- An executor as an adapter, which leaves a whole execution behind. -/
def Executor.adapter (x : Executor) (watch : Watch) (engine : Machine) (suffix : String)
    (t : FileTree) : Adapter Execution := fun request =>
  let done := x.execute request watch engine suffix t
  (done.result, done)

/-- A job as it is found afterwards. The log of a job names its source throughout. -/
structure Rendering (α : Type) where
  result : Except JobError Output
  log : List LogEvent
  metrics : List Metric
  /-- The request and what its execution left behind, if it came so far. -/
  call : Option (ExecutionRequest × α) := none

namespace Job

def loadImages (load : AssetId → Except StorageError Bytes) :
    List ImageInput → Except StorageError (List (OverlayId × Bytes))
  | [] => .ok []
  | i :: rest => do
    let bytes ← load i.overlay.image
    return (i.overlay.id, bytes) :: (← loadImages load rest)

def loadRequest (load : AssetId → Except StorageError Bytes) (e : Edit) (command : EditCommand) :
    Except StorageError ExecutionRequest := do
  let source ← load e.source.asset
  let images ← loadImages load command.images
  return ⟨source, images, command⟩

def start (e : Edit) : LogEvent := .started e.overlayCount e.trim.duration

/-- A job that failed before its adapter was called. -/
def failure (e : Edit) (error : JobError) (metrics : List Metric) : Rendering α :=
  { result := .error error, log := [start e, .ofError error], metrics }

def closing (elapsed : Binary64) : Except JobError Output → LogEvent
  | .ok output => .completed output.fileName (Timestamp.formatElapsed elapsed)
  | .error e => .ofError e

def render (load : AssetId → Except StorageError Bytes) (adapter : Adapter α)
    (options : AssemblyOptions) (elapsed : Binary64) (e : Edit) : Rendering α :=
  match e.assemble options with
  | ⟨.error err, metrics⟩ => failure e (.render err) metrics
  | ⟨.ok command, metrics⟩ =>
    match loadRequest load e command with
    | .error err => failure e (.storage err) metrics
    | .ok request =>
      let (answer, left) := adapter request
      let result := answer.mapError .render
      { result
        log := [start e, .loaded command.images.length, closing elapsed result]
        metrics
        call := some (request, left) }

end Job

def Edit.ofBytes (bytes : Except IoError Bytes) : Except JobError Edit := do
  let bytes ← bytes.mapError .io
  match bytes.text? with
  | none => throw (.io .notText)
  | some text => (Edit.read text).mapError .json

end Montage
