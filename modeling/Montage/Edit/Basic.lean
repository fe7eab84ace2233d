import Montage.Format
import Montage.Overlay.Basic

/-! Edits: which part of a source video is kept, and what is drawn over it. -/
namespace Montage

structure TrimRange where
  start : Binary64
  stop : Binary64
deriving DecidableEq

namespace TrimRange

def duration (t : TrimRange) : Binary64 := t.stop - t.start

/-- The start is not negative and lies before the end; both are finite. -/
def validate (t : TrimRange) : Except EditError Unit :=
  if !(t.start.isFinite && t.stop.isFinite) || t.start.lt 0 || t.stop.le t.start then
    .error (.invalidTrim t.start t.stop)
  else .ok ()

/-- The part of the range within a medium of the given length. It may be empty. -/
def clampedTo (t : TrimRange) (length : Binary64) : TrimRange :=
  let stop := t.stop.min length
  ⟨(t.start.max 0).min stop, stop⟩

end TrimRange

/-- An uploaded video: where its bytes are stored, and the name it came with. -/
structure SourceAsset where
  asset : AssetId
  fileName : String
  contentType : Option String := none
deriving DecidableEq

/-- Images are drawn below texts. Within each list, later overlays are drawn above. -/
structure Edit where
  trim : TrimRange
  images : List ImageOverlay := []
  texts : List TextOverlay := []
  source : SourceAsset
  format : Format := .mp4
deriving DecidableEq

namespace Edit

def overlayCount (e : Edit) : Nat := e.images.length + e.texts.length

def checks (e : Edit) : List (OverlayId × Except EditError Unit) :=
  e.images.map (fun o => (o.id, o.validate)) ++ e.texts.map (fun o => (o.id, o.validate))

/-- Each overlay has to be valid and to have an id that no earlier one has. -/
def checkOverlays (seen : List OverlayId) :
    List (OverlayId × Except EditError Unit) → Except EditError Unit
  | [] => .ok ()
  | (id, check) :: rest => do
    check
    if id ∈ seen then .error (.duplicateOverlay id) else checkOverlays (id :: seen) rest

/-- Windows may lie outside the trim, since they are times of the untrimmed source. -/
def validate (e : Edit) : Except EditError Unit := do
  e.trim.validate
  checkOverlays [] e.checks

end Edit
end Montage
