import Montage.Overlay.Patch

/-! Editing a list of overlays step by step. A change that is refused leaves the list as it is. -/
namespace Montage

class Patch (P : Type) (α : outParam Type) where
  apply : P → α → α

instance : Patch TextPatch TextOverlay := ⟨TextPatch.apply⟩
instance : Patch ImagePatch ImageOverlay := ⟨ImagePatch.apply⟩

namespace Overlay

inductive Change (α P : Type) where
  | add (o : α)
  | remove (i : OverlayId)
  | update (i : OverlayId) (patch : P)

variable {α P : Type} [Overlay α] [Patch P α]

def Change.result (list : List α) : Change α P → Except EditError (List α)
  | add o => Overlay.add list o
  | remove i => Overlay.remove list i
  | update i patch => Overlay.update list i (Patch.apply patch)

def change (list : List α) (c : Change α P) : List α :=
  match c.result list with
  | .ok next => next
  | .error _ => list

/-- The list at the end of a session that began without overlays. -/
def session (changes : List (Change α P)) : List α := changes.foldl change []

end Overlay
end Montage
