import Montage.Edit.Error
import Montage.FileTree.Basic
import Montage.Filter.Escape

/-! How a render goes wrong: in the edit, in the engine, or around them. -/
namespace Montage

inductive RenderError where
  | engineNotFound
  /-- The last lines of the engine's report and its exit code, as far as there are any. -/
  | engineFailed (text : String) (report : Option String) (exitCode : Option Int)
  | invalidEdit (cause : EditError)
  | escape (id : OverlayId) (cause : EscapeError)
  | missingAsset (id : OverlayId)
  | fileNotFound (path : String)
  | cancelled
  | timeout (seconds : Nat)
  | io (cause : IoError)
  | internal (text : String)
deriving DecidableEq

namespace RenderError

def message : RenderError → String
  | engineNotFound => "FFmpeg not found in PATH"
  | engineFailed text _ _ => s!"FFmpeg command failed: {text}"
  | invalidEdit cause => s!"Invalid edit: {cause.message}"
  | escape id cause => s!"Overlay {id} cannot be rendered: {cause.message}"
  | missingAsset id => s!"No bytes supplied for image overlay {id}"
  | fileNotFound path => s!"File not found: {path}"
  | cancelled => "Operation cancelled"
  | timeout seconds => s!"Operation timed out after {Numeral.text seconds} seconds"
  | io cause => s!"IO error: {cause.message}"
  | internal text => s!"Internal error: {text}"

/-- What a user is shown: the engine's own report if it left one, and the message otherwise. -/
def diagnostic : RenderError → String
  | engineFailed text (some report) exitCode =>
    if Text.trimmed report = "" then (engineFailed text (some report) exitCode).message
    else text ++ ": " ++ Text.trimmed report
  | e => e.message

/-- Whether the edit is at fault, rather than the engine or what is around it. -/
def isInvalidInput : RenderError → Bool
  | invalidEdit _ | escape _ _ | missingAsset _ => true
  | _ => false

def cause? : RenderError → Option String
  | invalidEdit cause => some cause.message
  | escape _ cause => some cause.message
  | io cause => some cause.message
  | _ => none

end RenderError
end Montage
