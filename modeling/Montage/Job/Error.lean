import Montage.Json.Decode
import Montage.Render.Error
import Montage.Store.Key

/-! How a job fails: by its configuration, its assets, its render, or the text of its edit. -/
namespace Montage

inductive JobError where
  | config (text : String)
  | storage (cause : StorageError)
  | render (cause : RenderError)
  | io (cause : IoError)
  | json (cause : Json.Problem)
deriving DecidableEq

namespace JobError

def message : JobError → String
  | config text => s!"Configuration error: {text}"
  | storage cause => s!"Storage error: {cause.message}"
  | render cause => s!"Media error: {cause.message}"
  | io cause => s!"IO error: {cause.message}"
  | json cause => s!"JSON error: {cause.message}"

def diagnostic : JobError → String
  | render cause => cause.diagnostic
  | e => e.message

def isCancelled : JobError → Bool
  | render .cancelled => true
  | _ => false

/-- Whether the job would fail in the same way again, whatever runs it. -/
def isInvalidInput : JobError → Bool
  | json _ => true
  | render cause => cause.isInvalidInput
  | storage (.notFound _) | storage (.invalidKey _) => true
  | _ => false

end JobError
end Montage
