import Montage.Job.Error

/-! The events that a job reports. -/
namespace Montage

inductive LogLevel where
  | info
  | warn
  | error
deriving DecidableEq, Repr

inductive LogEvent where
  | started (overlays : Nat) (length : Binary64)
  | loaded (images : Nat)
  | completed (output : String) (elapsed : String)
  | cancelled
  | failed (diagnostic : String)
deriving DecidableEq

namespace LogEvent

def level : LogEvent → LogLevel
  | cancelled => .warn
  | failed _ => .error
  | _ => .info

def message : LogEvent → String
  | started _ _ => "Render started"
  | loaded images =>
    "Render progress: loaded source and " ++ Numeral.text images ++ " overlay image(s)"
  | completed _ elapsed => "Render completed in " ++ elapsed
  | cancelled => "Render warning: cancelled"
  | failed diagnostic => "Render failed: " ++ diagnostic

def ofError (e : JobError) : LogEvent := if e.isCancelled then cancelled else failed e.diagnostic

end LogEvent
end Montage
