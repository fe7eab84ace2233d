/-! What is counted while edits are compiled and run. -/
namespace Montage

inductive Outcome where
  | success
  | cancelled
  | timeout
  | failed
deriving DecidableEq, Repr

def Outcome.name : Outcome → String
  | success => "success"
  | cancelled => "cancelled"
  | timeout => "timeout"
  | failed => "failed"

/-- One step of a counter, or one sample of a distribution. -/
inductive Metric where
  | graphCompiled
  | commandAssembled (kind : String)
  | engineRun (outcome : Outcome)
  /-- A sample of the running time, which is not recorded itself. -/
  | engineDuration (outcome : Outcome)
  | execution (outcome : Outcome)
  | outputBytes (count : Nat)
deriving DecidableEq, Repr

namespace Metric

def name : Metric → String
  | graphCompiled => "vedit_filter_graphs_compiled_total"
  | commandAssembled _ => "vedit_commands_assembled_total"
  | engineRun _ => "vedit_ffmpeg_runs_total"
  | engineDuration _ => "vedit_ffmpeg_duration_seconds"
  | execution _ => "vedit_executions_total"
  | outputBytes _ => "vedit_output_bytes"

def label? : Metric → Option (String × String)
  | graphCompiled | outputBytes _ => none
  | commandAssembled kind => some ("kind", kind)
  | engineRun outcome | engineDuration outcome | execution outcome => some ("outcome", outcome.name)

end Metric

structure Measured (α : Type) where
  value : α
  metrics : List Metric := []

end Montage
