import Montage.Job.Render

/-! A job act by act. A store and an adapter are asked one thing after another, and what they answer may
depend on all that was done before. -/
namespace Montage

inductive JobAct where
  | load (id : AssetId)
  | execute (request : ExecutionRequest)
  | report (event : LogEvent)

namespace JobAct

def event? : JobAct → Option LogEvent
  | report event => some event
  | _ => none

def request? : JobAct → Option ExecutionRequest
  | execute request => some request
  | _ => none

end JobAct

/-- The store and the adapter of a job. They are told what the job has done already. -/
structure Partners where
  load : List JobAct → AssetId → Except StorageError Bytes
  execute : List JobAct → ExecutionRequest → Except RenderError Output

/-- Partners that always answer in the same way. -/
def Partners.steady {α : Type} (load : AssetId → Except StorageError Bytes) (adapter : Adapter α) :
    Partners :=
  ⟨fun _ => load, fun _ request => (adapter request).1⟩

/-- Work that may fail. Its acts are noted down, one after another. -/
abbrev Journal := ExceptT JobError (StateM (List JobAct))

namespace Journal

/-- What comes out of some work, and all acts up to its end. -/
def done {α : Type} (work : Journal α) (before : List JobAct) : Except JobError α × List JobAct :=
  StateT.run (ExceptT.run work) before

def report (event : LogEvent) : Journal Unit := modify (· ++ [.report event])

/-- A result that is there without any act. -/
def given {α : Type} (result : Except JobError α) : Journal α := ExceptT.mk (pure result)

/-- Does one thing, and goes on if the answer to it is good. -/
def ask {α : Type} (act : JobAct) (answer : List JobAct → Except JobError α) : Journal α := do
  let before ← getThe (List JobAct)
  set (before ++ [act])
  given (answer before)

def load (w : Partners) (id : AssetId) : Journal Bytes :=
  ask (.load id) fun before => (w.load before id).mapError .storage

def loadImages (w : Partners) : List ImageInput → Journal (List (OverlayId × Bytes))
  | [] => return []
  | i :: rest => do
    let bytes ← load w i.overlay.image
    return (i.overlay.id, bytes) :: (← loadImages w rest)

def loadRequest (w : Partners) (e : Edit) (command : EditCommand) : Journal ExecutionRequest := do
  let source ← load w e.source.asset
  let images ← loadImages w command.images
  return ⟨source, images, command⟩

def execute (w : Partners) (request : ExecutionRequest) : Journal Output :=
  ask (.execute request) fun before => (w.execute before request).mapError .render

def render (w : Partners) (options : AssemblyOptions) (elapsed : Binary64) (e : Edit) :
    Journal Output := do
  report (Job.start e)
  let command ← given ((e.assemble options).value.mapError .render)
  let request ← loadRequest w e command
  report (.loaded command.images.length)
  let output ← execute w request
  report (.completed output.fileName (Timestamp.formatElapsed elapsed))
  return output

end Journal

/-- A whole job: its result, and what it has done. A failure is reported at the end. -/
def Job.carryOut (w : Partners) (options : AssemblyOptions) (elapsed : Binary64) (e : Edit) :
    Except JobError Output × List JobAct :=
  match (Journal.render w options elapsed e).done [] with
  | (.ok output, acts) => (.ok output, acts)
  | (.error err, acts) => (.error err, acts ++ [.report (.ofError err)])

end Montage
