import Montage.Command.Basic
import Montage.Engine.Basic
import Montage.Render.Error
import Montage.Render.Metric

/-! Running a command in a directory. Every run that was started is counted once, by the way it ended. -/
namespace Montage

/-- What an engine is started with: its arguments, and its directory at that time. -/
structure Launch where
  arguments : List String
  staged : FileTree

structure Run where
  result : Except RenderError Unit
  /-- The states handed out, one for each block of progress. -/
  snapshots : List Progress := []
  launch : Option Launch := none
  tree : FileTree
  metrics : List Metric := []

namespace Run

def outcome : Completion → Outcome
  | .exited code => if code = some 0 then .success else .failed
  | .cancelled => .cancelled
  | .deadline _ => .timeout

def resultOf (report : List String) : Completion → Except RenderError Unit
  | .exited code =>
    if code = some 0 then .ok ()
    else .error (.engineFailed "FFmpeg exited with non-zero status" (Report.tail? report) code)
  | .cancelled => .error .cancelled
  | .deadline seconds => .error (.timeout seconds)

/-- An argument of a process has fewer bytes than this. -/
def argumentLimit : Nat := 131072

def refusal? (arguments : List String) : Option IoError :=
  if arguments.any fun a => a.toList.any fun c => c.toNat = 0 then some .zeroByte
  else if arguments.any fun a => argumentLimit ≤ a.utf8ByteSize then some .argumentTooLong
  else none

end Run

/-- Runs a command. Nothing is started when the signal is on already or there is no engine. -/
def Command.run (c : Command) (isCancelled : Bool) (course : Option Course) (dir : Location)
    (t : FileTree) : Run :=
  if isCancelled then { result := .error .cancelled, tree := t }
  else match course with
    | none => { result := .error .engineNotFound, tree := t }
    | some course =>
      match Run.refusal? c.runArguments with
      | some e => { result := .error (.io e), tree := t }
      | none =>
        let lines := Report.lines course.report
        { result := Run.resultOf lines course.completion
          snapshots := Report.snapshots lines
          launch := some ⟨c.runArguments, t.below dir⟩
          tree := t.within dir course.work
          metrics := [.engineRun (Run.outcome course.completion),
            .engineDuration (Run.outcome course.completion)] }

end Montage
