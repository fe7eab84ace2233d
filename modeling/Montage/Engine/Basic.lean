import Montage.Engine.Race
import Montage.Engine.Report
import Montage.FileTree.Basic

/-! The engine as it is seen from outside. A course is what it did until its end was noticed: what it
reported, what it made of its directory, and the completion that ended the waiting for it. -/
namespace Montage

structure Course where
  report : Bytes
  work : FileTree → FileTree
  completion : Completion

/-- What an engine will do within a time limit, none if there is no engine. -/
abbrev Machine := Option Nat → Option Course

/-- The cancellation signal at the moments when it is looked at outside of the waiting. It never
turns off again. -/
structure Watch where
  onEntry : Bool := false
  beforeStart : Bool := onEntry
  afterExit : Bool := beforeStart
  start_of_entry : onEntry → beforeStart := by decide
  exit_of_start : beforeStart → afterExit := by decide

def Watch.never : Watch := {}

/-- How an engine ends that is left alone. The last eight bits of an exit code are kept. -/
inductive Ending where
  | exits (code : Int)
  | killed
  | hangs
deriving DecidableEq

/-- An engine with known habits: it reports, writes files and then ends in its way. -/
structure Engine where
  report : Bytes := []
  files : FileTree := {}
  ending : Ending

inductive Signal where
  | never
  /-- Nobody is left who could turn it on. -/
  | dropped
  | onEntry
  | whileRunning
  /-- With the first block of progress. -/
  | onProgress
  | afterExit
deriving DecidableEq

def Signal.watch : Signal → Watch
  | .onEntry => { onEntry := true }
  | .afterExit => { afterExit := true }
  | _ => .never

namespace Engine

def wholly (e : Engine) (completion : Completion) : Course :=
  ⟨e.report, fun t => t.graft [] e.files, completion⟩

def hearsSignal (e : Engine) : Signal → Bool
  | .whileRunning => true
  | .onProgress => (Report.snapshots (Report.lines e.report)) ≠ []
  | _ => false

/-- What there is to see of an engine that is alone with the signal: first how it ends or that the
signal is on, and at last that its time is over. -/
def moments (e : Engine) (signal : Signal) (timeout : Option Nat) : List Moment :=
  let first : Moment := match e.ending with
    | .exits code => { exit := some (some (code % 256)) }
    | .killed => { exit := some none }
    | .hangs => { isCancelled := e.hearsSignal signal }
  [first, { seconds := timeout.getD 0 }]

/-- The course of a run, none if it would never end. A deadline of no time at all passes before the
engine has done anything. -/
def course? (e : Engine) (signal : Signal) (timeout : Option Nat) : Option Course :=
  if timeout = some 0 then some ⟨[], id, .deadline 0⟩
  else (Completion.first? timeout 0 (e.moments signal timeout)).map e.wholly

end Engine
end Montage
