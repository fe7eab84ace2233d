import Montage.Overlay.Session
import Montage.Proofs.Except
import Montage.Proofs.Overlay.List
import Montage.Proofs.Register

/-! The algebra of patches. A patch sets fields of an overlay and never its id, so updates can be merged,
and updates and removals of different overlays may change places. -/
namespace Montage

/-- Patches that set some fields and keep the others, which with the id are all there is of an
overlay. -/
class FieldPatch (P : Type) (α : outParam Type) [Overlay α] extends Patch P α where
  /-- Each field as the second patch sets it, or else as the first one does. -/
  merge : P → P → P
  fields : List (Register fun (o : α) (p : P) => apply p o)
  id_apply : ∀ p o, Overlay.id (apply p o) = Overlay.id o
  ext : ∀ o other, Overlay.id o = Overlay.id other →
    (∀ field ∈ fields, field.get o = field.get other) → o = other
  given?_merge : ∀ p q, ∀ field ∈ fields,
    field.given? (merge p q) = (field.given? q).or (field.given? p)

namespace TextPatch

def merge (p q : TextPatch) : TextPatch where
  text := q.text.or p.text
  fontFamily := q.fontFamily.or p.fontFamily
  fontSize := q.fontSize.or p.fontSize
  color := q.color.or p.color
  position := q.position.or p.position
  size := q.size.or p.size
  visibleFrom := q.visibleFrom.or p.visibleFrom
  visibleUntil := q.visibleUntil.or p.visibleUntil

def fields : List (Register fun (o : TextOverlay) (p : TextPatch) => p.apply o) :=
  [⟨String, TextOverlay.text, text, fun _ _ => rfl⟩,
    ⟨String, TextOverlay.fontFamily, fontFamily, fun _ _ => rfl⟩,
    ⟨Nat, TextOverlay.fontSize, fontSize, fun _ _ => rfl⟩,
    ⟨String, TextOverlay.color, color, fun _ _ => rfl⟩,
    ⟨Position, TextOverlay.position, position, fun _ _ => rfl⟩,
    ⟨Size, TextOverlay.size, size, fun _ _ => rfl⟩,
    ⟨Binary64, TextOverlay.visibleFrom, visibleFrom, fun _ _ => rfl⟩,
    ⟨Binary64, TextOverlay.visibleUntil, visibleUntil, fun _ _ => rfl⟩]

theorem eq_of_fields {o other : TextOverlay} (same_id : o.id = other.id)
    (same : ∀ field ∈ fields, field.get o = field.get other) : o = other := by
  simp only [fields, List.forall_mem_cons] at same
  cases o
  cases other
  simp_all

theorem given?_merge (p q : TextPatch) : ∀ field ∈ fields,
    field.given? (merge p q) = (field.given? q).or (field.given? p) := by
  simp [fields, merge]

end TextPatch

namespace ImagePatch

def merge (p q : ImagePatch) : ImagePatch where
  image := q.image.or p.image
  position := q.position.or p.position
  size := q.size.or p.size
  visibleFrom := q.visibleFrom.or p.visibleFrom
  visibleUntil := q.visibleUntil.or p.visibleUntil

def fields : List (Register fun (o : ImageOverlay) (p : ImagePatch) => p.apply o) :=
  [⟨AssetId, ImageOverlay.image, image, fun _ _ => rfl⟩,
    ⟨Position, ImageOverlay.position, position, fun _ _ => rfl⟩,
    ⟨Size, ImageOverlay.size, size, fun _ _ => rfl⟩,
    ⟨Binary64, ImageOverlay.visibleFrom, visibleFrom, fun _ _ => rfl⟩,
    ⟨Binary64, ImageOverlay.visibleUntil, visibleUntil, fun _ _ => rfl⟩]

theorem eq_of_fields {o other : ImageOverlay} (same_id : o.id = other.id)
    (same : ∀ field ∈ fields, field.get o = field.get other) : o = other := by
  simp only [fields, List.forall_mem_cons] at same
  cases o
  cases other
  simp_all

theorem given?_merge (p q : ImagePatch) : ∀ field ∈ fields,
    field.given? (merge p q) = (field.given? q).or (field.given? p) := by
  simp [fields, merge]

end ImagePatch

instance : FieldPatch TextPatch TextOverlay where
  merge := TextPatch.merge
  fields := TextPatch.fields
  id_apply _ _ := rfl
  ext _ _ := TextPatch.eq_of_fields
  given?_merge := TextPatch.given?_merge

instance : FieldPatch ImagePatch ImageOverlay where
  merge := ImagePatch.merge
  fields := ImagePatch.fields
  id_apply _ _ := rfl
  ext _ _ := ImagePatch.eq_of_fields
  given?_merge := ImagePatch.given?_merge

namespace FieldPatch

variable {α P : Type} [Overlay α] [FieldPatch P α]

def idField : Register fun (o : α) (p : P) => Patch.apply p o :=
  ⟨OverlayId, Overlay.id, fun _ => none, fun o p => id_apply p o⟩

def allFields : List (Register fun (o : α) (p : P) => Patch.apply p o) := idField :: fields

theorem determine_allFields : Register.Determine (allFields (α := α) (P := P)) := by
  intro o other same
  rw [allFields, List.forall_mem_cons] at same
  exact ext o other same.1 same.2

theorem apply_apply (p q : P) (o : α) :
    Patch.apply q (Patch.apply p o) = Patch.apply (merge p q) o := by
  have given : ∀ field ∈ allFields (α := α) (P := P),
      field.given? (merge p q) = (field.given? q).or (field.given? p) :=
    List.forall_mem_cons.2 ⟨rfl, given?_merge p q⟩
  exact Register.step_step determine_allFields given o

theorem apply_self (p : P) (o : α) : Patch.apply p (Patch.apply p o) = Patch.apply p o :=
  Register.step_self determine_allFields p o

end FieldPatch

namespace Overlay

section
variable {α : Type} [Overlay α]

theorem update_bind {β : Type} (list : List α) (i : OverlayId) (f : α → α)
    (k : List α → Except EditError β) : (update list i f >>= k) =
      if i ∈ ids list then k (modifyFirst i f list) else .error (.overlayNotFound i) := by
  rw [update]
  split <;> rfl

theorem remove_bind {β : Type} (list : List α) (i : OverlayId)
    (k : List α → Except EditError β) : (remove list i >>= k) =
      if i ∈ ids list then k (list.filter fun o => id o ≠ i) else .error (.overlayNotFound i) := by
  rw [remove]
  split <;> rfl

end

section
variable {α P : Type} [Overlay α] [Patch P α] (list : List α)

theorem change_add (o : α) : change list (.add o : Change α P) =
    if id o ∈ ids list then list else list ++ [o] := by
  rw [change, Change.result, add]
  split_ifs with taken <;> rfl

theorem change_remove (i : OverlayId) : change list (.remove i : Change α P) =
    list.filter fun o => id o ≠ i := by
  rw [change, Change.result, remove]
  split_ifs with present
  · rfl
  · exact (filter_ne_of_not_mem present).symm

theorem change_update (i : OverlayId) (p : P) : change list (.update i p) =
    modifyFirst i (Patch.apply p) list := by
  rw [change, Change.result, update]
  split_ifs with present
  · rfl
  · exact (modifyFirst_of_not_mem present).symm

end

structure UpdateLaws (P : Type) {α : Type} [Overlay α] [FieldPatch P α] : Prop where
  fields_merged : ∀ p q : P, ∀ field ∈ FieldPatch.fields (α := α) (P := P),
    field.given? (FieldPatch.merge p q) = (field.given? q).or (field.given? p)
  merged : ∀ (list : List α) (i : OverlayId) (p q : P),
    (update list i (Patch.apply p) >>= fun next => update next i (Patch.apply q)) =
      update list i (Patch.apply (FieldPatch.merge p q))
  apart : ∀ (list : List α) (i j : OverlayId) (p q : P), i ≠ j → i ∈ ids list → j ∈ ids list →
    ∃ both, (update list i (Patch.apply p) >>= fun next => update next j (Patch.apply q)) = .ok both ∧
      (update list j (Patch.apply q) >>= fun next => update next i (Patch.apply p)) = .ok both
  twice : ∀ (list : List α) (i : OverlayId) (p : P),
    (update list i (Patch.apply p) >>= fun next => update next i (Patch.apply p)) =
      update list i (Patch.apply p)
  removed : ∀ (list : List α) (i : OverlayId) (p : P),
    (update list i (Patch.apply p) >>= fun next => remove next i) = remove list i
  /-- One overlay cannot be updated once it is removed. Where neither of two is there, either order is
  refused, but for the id that it looks for first. -/
  beside_removal : ∀ (list : List α) (i j : OverlayId) (p : P),
    (update list i (Patch.apply p) >>= fun next => remove next j) =
        (remove list j >>= fun next => update next i (Patch.apply p)) ↔
      i ≠ j ∧ (i ∈ ids list ∨ j ∈ ids list) ∨ i = j ∧ i ∉ ids list
  /-- In a session, where a change that is refused is passed over, also for one overlay or none. -/
  either_order : ∀ (list : List α) (i j : OverlayId) (p : P),
    [Change.update i p, .remove j].foldl change list =
      [Change.remove j, .update i p].foldl change list

theorem updateLaws (P : Type) {α : Type} [Overlay α] [FieldPatch P α] : UpdateLaws P where
  fields_merged := FieldPatch.given?_merge
  merged list i p q := by
    have both : Patch.apply q ∘ Patch.apply p = Patch.apply (α := α) (FieldPatch.merge p q) :=
      funext fun o => FieldPatch.apply_apply p q o
    rw [update_bind, update, update, ids_modifyFirst (FieldPatch.id_apply p),
      modifyFirst_modifyFirst (FieldPatch.id_apply p), both]
    split <;> rfl
  apart list i j p q ne here there := by
    refine ⟨modifyFirst j (Patch.apply q) (modifyFirst i (Patch.apply p) list), ?_, ?_⟩
    · rw [update_bind, if_pos here, update, ids_modifyFirst (FieldPatch.id_apply p), if_pos there]
    · rw [update_bind, if_pos there, update, ids_modifyFirst (FieldPatch.id_apply q), if_pos here,
        modifyFirst_comm (FieldPatch.id_apply p) (FieldPatch.id_apply q) ne]
  twice list i p := by
    have once : Patch.apply p ∘ Patch.apply p = Patch.apply (α := α) p :=
      funext fun o => FieldPatch.apply_self p o
    rw [update_bind, update, update, ids_modifyFirst (FieldPatch.id_apply p),
      modifyFirst_modifyFirst (FieldPatch.id_apply p), once]
    split <;> rfl
  removed list i p := by
    rw [update_bind, remove, remove, ids_modifyFirst (FieldPatch.id_apply p),
      filter_modifyFirst (FieldPatch.id_apply p)]
    split <;> rfl
  beside_removal list i j p := by
    rw [update_bind, remove_bind, remove, update, ids_modifyFirst (FieldPatch.id_apply p)]
    simp only [mem_ids_filter_ne]
    rcases eq_or_ne i j with rfl | ne
    · by_cases here : i ∈ ids list <;> simp [here]
    · rw [filter_modifyFirst_of_ne (FieldPatch.id_apply p) ne]
      by_cases here : i ∈ ids list <;> by_cases there : j ∈ ids list <;> simp [here, there, ne]
  either_order list i j p := by
    simp only [List.foldl_cons, List.foldl_nil, change_remove, change_update]
    rcases eq_or_ne i j with rfl | ne
    · have gone : i ∉ ids (list.filter fun o => id o ≠ i) := fun found =>
        (mem_ids_filter_ne.1 found).2 rfl
      rw [filter_modifyFirst (FieldPatch.id_apply p), modifyFirst_of_not_mem gone]
    · exact filter_modifyFirst_of_ne (FieldPatch.id_apply p) ne list

end Overlay

theorem updates_form_an_algebra : Overlay.UpdateLaws TextPatch ∧ Overlay.UpdateLaws ImagePatch :=
  ⟨Overlay.updateLaws TextPatch, Overlay.updateLaws ImagePatch⟩

/-- The only overlay cannot be updated once it is removed, and an empty list refuses the update in one
order and the removal in the other. -/
theorem orders_of_update_and_removal_differ :
    let update (list : List TextOverlay) := Overlay.update list "a" (Patch.apply ({} : TextPatch))
    let list : List TextOverlay := [{ id := "a", text := "Hi", visibleUntil := 10 }]
    (Overlay.ids list).Nodup ∧
    (update list >>= fun next => Overlay.remove next "a") = .ok [] ∧
    (Overlay.remove list "a" >>= update) = .error (.overlayNotFound "a") ∧
    (update [] >>= fun next => Overlay.remove next "b") = .error (.overlayNotFound "a") ∧
    (Overlay.remove [] "b" >>= update) = .error (.overlayNotFound "b") := by
  refine ⟨by decide, ?_, ?_, ?_, ?_⟩
  all_goals rfl

end Montage
