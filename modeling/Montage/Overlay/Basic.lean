import Montage.Edit.Error

/-! Text and image overlays: boxes shown over the video for a while, in seconds of the source. -/
namespace Montage

abbrev AssetId := String

/-- The top left corner of a box, in pixels. -/
structure Position where
  x : Binary64
  y : Binary64
deriving DecidableEq

structure Size where
  width : Binary64
  height : Binary64
deriving DecidableEq

def Position.origin : Position := ⟨0, 0⟩

/-- The box of a text that does not say otherwise. -/
def Size.textBox : Size := ⟨200, 50⟩

structure TextOverlay where
  id : OverlayId
  text : String
  fontFamily : String := "arial"
  fontSize : Nat := 24
  color : String := "black"
  position : Position := Position.origin
  size : Size := Size.textBox
  visibleFrom : Binary64 := 0
  visibleUntil : Binary64
deriving DecidableEq

structure ImageOverlay where
  id : OverlayId
  image : AssetId
  position : Position := Position.origin
  size : Size
  visibleFrom : Binary64 := 0
  visibleUntil : Binary64
deriving DecidableEq

class Overlay (α : Type) where
  id : α → OverlayId

instance : Overlay TextOverlay := ⟨TextOverlay.id⟩
instance : Overlay ImageOverlay := ⟨ImageOverlay.id⟩

namespace Overlay

/-- A position is finite and not negative, a size is finite and positive. -/
def checkGeometry (id : OverlayId) (p : Position) (s : Size) : Except EditError Unit :=
  if !(p.x.isFinite && p.y.isFinite) || p.x.lt 0 || p.y.lt 0 then
    .error (.invalidPosition id p.x p.y)
  else if !(s.width.isFinite && s.height.isFinite) || s.width.le 0 || s.height.le 0 then
    .error (.invalidSize id s.width s.height)
  else .ok ()

def checkWindow (id : OverlayId) (start stop : Binary64) : Except EditError Unit :=
  if !(start.isFinite && stop.isFinite) || stop.le start then
    .error (.invalidVisibility id start stop)
  else .ok ()

end Overlay

/-- The content of the text is checked when it is written into a filter graph. -/
def TextOverlay.validate (o : TextOverlay) : Except EditError Unit :=
  if o.fontSize = 0 then .error (.zeroFontSize o.id)
  else do
    Overlay.checkGeometry o.id o.position o.size
    Overlay.checkWindow o.id o.visibleFrom o.visibleUntil

def ImageOverlay.validate (o : ImageOverlay) : Except EditError Unit := do
  Overlay.checkGeometry o.id o.position o.size
  Overlay.checkWindow o.id o.visibleFrom o.visibleUntil

end Montage
