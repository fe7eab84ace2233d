import Montage.Command.Assembly
import Montage.Engine.Run
import Montage.FileTree.Route

/-! Executing an edit command on bytes. The inputs are staged in a directory of their own, which is
taken away again however the run ends. -/
namespace Montage

structure ExecutionRequest where
  source : Bytes
  /-- The bytes of the image overlays by their ids. -/
  images : List (OverlayId × Bytes)
  command : EditCommand

structure Output where
  bytes : Bytes
  mimeTypeFamily : String
  fileName : String
deriving DecidableEq

namespace ExecutionRequest

/-- The bytes that were supplied first for an overlay. -/
def stagedImage (r : ExecutionRequest) (i : ImageInput) : Except RenderError (String × Bytes) :=
  match r.images.lookup i.overlay.id with
  | some bytes => .ok (i.fileName, bytes)
  | none => .error (.missingAsset i.overlay.id)

def stagedImages (r : ExecutionRequest) : List ImageInput → Except RenderError (List (String × Bytes))
  | [] => .ok []
  | i :: rest => do
    let staged ← r.stagedImage i
    return staged :: (← r.stagedImages rest)

def stagedFiles (r : ExecutionRequest) : Except RenderError (List (String × Bytes)) := do
  return (r.command.source, r.source) :: (← r.stagedImages r.command.images)

end ExecutionRequest

structure Executor where
  workDir : Directory
  timeout : Option Nat := none
  logLevel : String := "error"

structure Execution where
  result : Except RenderError Output
  launch : Option Launch := none
  tree : FileTree
  metrics : List Metric := []

/-- The directory that the files of one run are staged in. -/
structure Staging where
  path : String
  location : Location

def Staging.route (s : Staging) : Route := { start := s.location, size := s.path.utf8ByteSize }

namespace Executor

/-- The name of a staging directory, with a suffix that no other run has. -/
def stagingName (suffix : String) : String := "vedit-" ++ suffix

/-- The directory of a run below the working directory. -/
def staging (x : Executor) (suffix : String) (above : Location) : Staging :=
  ⟨x.workDir.pathOf (stagingName suffix), above ++ [stagingName suffix]⟩

def stageFiles (dir : Route) : List (String × Bytes) → FileTree → Except IoError FileTree
  | [], t => .ok t
  | (name, bytes) :: rest, t => do stageFiles dir rest (← t.write (dir.child name) bytes)

/-- The tree with the files before the first that cannot be written. -/
def stageSome (dir : Route) : List (String × Bytes) → FileTree → FileTree
  | [], t => t
  | (name, bytes) :: rest, t =>
    match t.write (dir.child name) bytes with
    | .ok written => stageSome dir rest written
    | .error _ => t

def collect (r : ExecutionRequest) (staging : Staging) (t : FileTree) : Except RenderError Output :=
  match t.read (staging.route.along r.command.output) with
  | .ok bytes => .ok ⟨bytes, r.command.format.mimeTypeFamily, r.command.output⟩
  | .error .notFound =>
    .error (.fileNotFound (String.ofList
      (Path.join staging.path.toList r.command.output.toList)))
  | .error e => .error (.io e)

def runStaged (x : Executor) (r : ExecutionRequest) (watch : Watch) (course : Option Course)
    (staging : Staging) (t : FileTree) : Execution :=
  let command := r.command.toCommand.withLogLevel x.logLevel
  let run := command.run watch.beforeStart course staging.location t
  let result := do
    run.result
    if watch.afterExit then throw .cancelled
    collect r staging run.tree
  ⟨result, run.launch, run.tree, run.metrics⟩

/-- Makes the working directory, which may fail after some of the directories above it are made. -/
def makeWorkDir (x : Executor) (t : FileTree) : FileTree × Except IoError Location :=
  match t.makeDirectories x.workDir.route with
  | (made, .error e) => (made, .error e)
  | (made, .ok ()) => (made, made.resolve x.workDir.route)

/-- Makes a fresh directory. The error tells its path. -/
def makeStaging (staging : Staging) (t : FileTree) : Except IoError FileTree :=
  if FileTree.pathLimit ≤ staging.path.utf8ByteSize then
    .error (.other (IoError.nameTooLong.message ++ " at path " ++ Text.quotePath staging.path))
  else .ok (t.put staging.location .directory)

/-- Stages the files, as far as they can be written, and runs the command on them. -/
def stageAndRun (x : Executor) (r : ExecutionRequest) (watch : Watch) (course : Option Course)
    (staging : Staging) (files : List (String × Bytes)) (t : FileTree) : Execution :=
  match stageFiles staging.route files t with
  | .error e => { result := .error (.io e), tree := stageSome staging.route files t }
  | .ok staged => x.runStaged r watch course staging staged

/-- Stages and runs in a fresh directory, which is taken away with all that is in it. -/
def runApart (x : Executor) (r : ExecutionRequest) (watch : Watch) (course : Option Course)
    (suffix : String) (files : List (String × Bytes)) (t : FileTree) : Execution :=
  match x.makeWorkDir t with
  | (made, .error e) => { result := .error (.io e), tree := made }
  | (made, .ok above) =>
    let staging := x.staging suffix above
    match makeStaging staging made with
    | .error e => { result := .error (.io e), tree := made }
    | .ok fresh =>
      let e := x.stageAndRun r watch course staging files fresh
      { e with tree := e.tree.prune staging.location }

def attempt (x : Executor) (r : ExecutionRequest) (watch : Watch) (course : Option Course)
    (suffix : String) (t : FileTree) : Execution :=
  if watch.onEntry then { result := .error .cancelled, tree := t }
  else match r.stagedFiles with
    | .error e => { result := .error e, tree := t }
    | .ok files => x.runApart r watch course suffix files t

def metricsOf : Except RenderError Output → List Metric
  | .ok output => [.execution .success, .outputBytes output.bytes.length]
  | .error .cancelled => [.execution .cancelled]
  | .error _ => [.execution .failed]

/-- Executes a request and counts the execution by its result. -/
def execute (x : Executor) (r : ExecutionRequest) (watch : Watch) (engine : Machine)
    (suffix : String) (t : FileTree) : Execution :=
  let e := x.attempt r watch (engine x.timeout) suffix t
  { e with metrics := e.metrics ++ metricsOf e.result }

end Executor
end Montage
