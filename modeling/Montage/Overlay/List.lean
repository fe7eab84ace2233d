import Montage.Overlay.Basic

/-! Overlay lists. The order of a list is the stacking order: later overlays are drawn above. -/
namespace Montage.Overlay

variable {α : Type} [Overlay α]

def ids (list : List α) : List OverlayId := list.map id

/-- Puts an overlay on top; its id has to be new. -/
def add (list : List α) (o : α) : Except EditError (List α) :=
  if id o ∈ ids list then .error (.duplicateOverlay (id o)) else .ok (list ++ [o])

/-- Takes every overlay with the id away and keeps the order of the rest. -/
def remove (list : List α) (i : OverlayId) : Except EditError (List α) :=
  if i ∈ ids list then .ok (list.filter fun o => id o ≠ i) else .error (.overlayNotFound i)

def modifyFirst (i : OverlayId) (f : α → α) : List α → List α
  | [] => []
  | o :: rest => if id o = i then f o :: rest else o :: modifyFirst i f rest

def update (list : List α) (i : OverlayId) (f : α → α) : Except EditError (List α) :=
  if i ∈ ids list then .ok (modifyFirst i f list) else .error (.overlayNotFound i)

end Montage.Overlay
