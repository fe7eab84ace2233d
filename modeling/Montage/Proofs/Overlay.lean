import Montage.Overlay.Basic
import Montage.Proofs.Except

/-! What the checks of an overlay say about it: its box and its window are finite, the box lies in the
quadrant of the frame and is not empty, and the window ends after it begins. -/
namespace Montage

namespace Overlay

structure HasBox (p : Position) (s : Size) : Prop where
  finite_x : p.x.isFinite = true
  finite_y : p.y.isFinite = true
  left : p.x.lt 0 = false
  top : p.y.lt 0 = false
  finite_width : s.width.isFinite = true
  finite_height : s.height.isFinite = true
  wide : s.width.le 0 = false
  high : s.height.le 0 = false

structure HasWindow (start stop : Binary64) : Prop where
  finite_start : start.isFinite = true
  finite_stop : stop.isFinite = true
  order : stop.le start = false

theorem checkGeometry_eq_ok_iff {id : OverlayId} {p : Position} {s : Size} :
    checkGeometry id p s = .ok () ↔ HasBox p s := by
  constructor
  · intro h
    simp only [checkGeometry] at h
    split at h
    · contradiction
    · rename_i position
      split at h
      · contradiction
      · rename_i size
        simp only [Bool.or_eq_true, Bool.not_eq_true', not_or, Bool.not_eq_true,
          Bool.not_eq_false, Bool.and_eq_true] at position size
        exact ⟨position.1.1.1, position.1.1.2, position.1.2, position.2,
          size.1.1.1, size.1.1.2, size.1.2, size.2⟩
  · intro h
    simp [checkGeometry, h.finite_x, h.finite_y, h.left, h.top, h.finite_width,
      h.finite_height, h.wide, h.high]

theorem checkWindow_eq_ok_iff {id : OverlayId} {start stop : Binary64} :
    checkWindow id start stop = .ok () ↔ HasWindow start stop := by
  constructor
  · intro h
    simp only [checkWindow] at h
    split at h
    · contradiction
    · rename_i window
      simp only [Bool.or_eq_true, Bool.not_eq_true', not_or, Bool.not_eq_true,
        Bool.not_eq_false, Bool.and_eq_true] at window
      exact ⟨window.1.1, window.1.2, window.2⟩
  · intro h
    simp [checkWindow, h.finite_start, h.finite_stop, h.order]

end Overlay

theorem ImageOverlay.validate_eq_ok_iff {o : ImageOverlay} :
    o.validate = .ok () ↔
      Overlay.HasBox o.position o.size ∧ Overlay.HasWindow o.visibleFrom o.visibleUntil := by
  simp only [ImageOverlay.validate, check_bind_eq_ok_iff, Overlay.checkGeometry_eq_ok_iff,
    Overlay.checkWindow_eq_ok_iff]

theorem TextOverlay.validate_eq_ok_iff {o : TextOverlay} :
    o.validate = .ok () ↔ o.fontSize ≠ 0 ∧
      Overlay.HasBox o.position o.size ∧ Overlay.HasWindow o.visibleFrom o.visibleUntil := by
  simp only [TextOverlay.validate]
  split
  · rename_i zero
    simp [zero]
  · rename_i positive
    simp only [check_bind_eq_ok_iff, Overlay.checkGeometry_eq_ok_iff,
      Overlay.checkWindow_eq_ok_iff]
    exact ⟨fun h => ⟨positive, h⟩, fun h => h.2⟩

def ImageOverlay.photo : ImageOverlay where
  id := "photo"
  image := "asset"
  position := ⟨1, 2⟩
  size := ⟨30, 40⟩
  visibleUntil := 5

/-- A text that can be drawn, with characters that are signs for its readers. -/
def TextOverlay.caption : TextOverlay where
  id := "caption"
  text := "it's 5%: [a];\\"
  color := "white@0.5"
  visibleUntil := 5

end Montage
