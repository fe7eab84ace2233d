import Montage.Overlay.List

/-! Partial changes of an overlay. A field that a patch does not set stays as it is; the id cannot be
changed. -/
namespace Montage

structure TextPatch where
  text : Option String := none
  fontFamily : Option String := none
  fontSize : Option Nat := none
  color : Option String := none
  position : Option Position := none
  size : Option Size := none
  visibleFrom : Option Binary64 := none
  visibleUntil : Option Binary64 := none
deriving DecidableEq

def TextPatch.apply (p : TextPatch) (o : TextOverlay) : TextOverlay where
  id := o.id
  text := p.text.getD o.text
  fontFamily := p.fontFamily.getD o.fontFamily
  fontSize := p.fontSize.getD o.fontSize
  color := p.color.getD o.color
  position := p.position.getD o.position
  size := p.size.getD o.size
  visibleFrom := p.visibleFrom.getD o.visibleFrom
  visibleUntil := p.visibleUntil.getD o.visibleUntil

structure ImagePatch where
  image : Option AssetId := none
  position : Option Position := none
  size : Option Size := none
  visibleFrom : Option Binary64 := none
  visibleUntil : Option Binary64 := none
deriving DecidableEq

def ImagePatch.apply (p : ImagePatch) (o : ImageOverlay) : ImageOverlay where
  id := o.id
  image := p.image.getD o.image
  position := p.position.getD o.position
  size := p.size.getD o.size
  visibleFrom := p.visibleFrom.getD o.visibleFrom
  visibleUntil := p.visibleUntil.getD o.visibleUntil

end Montage
