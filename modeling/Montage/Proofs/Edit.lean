import Mathlib.Data.List.Nodup
import Montage.Edit.Basic
import Montage.Proofs.Order
import Montage.Proofs.Overlay

/-! What a valid edit is. Ids are told apart over both of its lists, not within each of them alone. -/
namespace Montage

structure TrimRange.IsPart (t : TrimRange) : Prop where
  finite_start : t.start.isFinite = true
  finite_stop : t.stop.isFinite = true
  above : t.start.lt 0 = false
  order : t.stop.le t.start = false

theorem TrimRange.validate_eq_ok_iff {t : TrimRange} : t.validate = .ok () ↔ t.IsPart := by
  constructor
  · intro h
    simp only [validate] at h
    split at h
    · contradiction
    · rename_i range
      simp only [Bool.or_eq_true, Bool.not_eq_true', not_or, Bool.not_eq_true, Bool.not_eq_false,
        Bool.and_eq_true] at range
      exact ⟨range.1.1.1, range.1.1.2, range.1.2, range.2⟩
  · intro h
    simp [validate, h.finite_start, h.finite_stop, h.above, h.order]

theorem TrimRange.IsPart.stop_above {t : TrimRange} (h : t.IsPart) : t.stop.lt 0 = false :=
  Binary64.lt_zero_eq_false_of_le h.finite_start h.finite_stop h.above h.order

namespace Edit

def overlayIds (e : Edit) : List OverlayId := e.images.map (·.id) ++ e.texts.map (·.id)

theorem map_fst_checks (e : Edit) : e.checks.map Prod.fst = e.overlayIds := by
  simp [checks, overlayIds, Function.comp_def]

section
variable {seen : List OverlayId} {id : OverlayId} {check : Except EditError Unit}
  {rest : List (OverlayId × Except EditError Unit)}

theorem checkOverlays_cons_eq_ok_iff : checkOverlays seen ((id, check) :: rest) = .ok () ↔
    check = .ok () ∧ id ∉ seen ∧ checkOverlays (id :: seen) rest = .ok () := by
  rw [checkOverlays, check_bind_eq_ok_iff]
  by_cases old : id ∈ seen <;> simp [old]

theorem checkOverlays_cons_eq_error_iff {err : EditError} :
    checkOverlays seen ((id, check) :: rest) = .error err ↔ check = .error err ∨
      check = .ok () ∧ (id ∈ seen ∧ err = .duplicateOverlay id ∨
        id ∉ seen ∧ checkOverlays (id :: seen) rest = .error err) := by
  rw [checkOverlays, check_bind_eq_error_iff]
  by_cases old : id ∈ seen <;> simp [old, eq_comm]

end

/-- The ids that were seen before count like those in the list. -/
theorem checkOverlays_eq_ok_iff {seen : List OverlayId}
    {list : List (OverlayId × Except EditError Unit)} :
    checkOverlays seen list = .ok () ↔ (∀ c ∈ list, c.2 = .ok ()) ∧
      (list.map Prod.fst).Nodup ∧ ∀ c ∈ list, c.1 ∉ seen := by
  induction list generalizing seen with
  | nil => simp [checkOverlays]
  | cons c rest ih =>
    rw [checkOverlays_cons_eq_ok_iff, ih, List.map_cons, List.nodup_cons, List.forall_mem_cons,
      List.forall_mem_cons]
    have first : (∀ d ∈ rest, d.1 ∉ c.1 :: seen) ↔
        c.1 ∉ rest.map Prod.fst ∧ ∀ d ∈ rest, d.1 ∉ seen := by
      simp only [List.mem_cons, not_or, List.mem_map, not_exists, not_and, ← forall_and]
    rw [first]
    tauto

theorem validate_eq_ok_iff {e : Edit} : e.validate = .ok () ↔ e.trim.validate = .ok () ∧
    (∀ o ∈ e.images, o.validate = .ok ()) ∧ (∀ o ∈ e.texts, o.validate = .ok ()) ∧
      e.overlayIds.Nodup := by
  have all : (∀ c ∈ e.checks, c.2 = .ok ()) ↔
      (∀ o ∈ e.images, o.validate = .ok ()) ∧ ∀ o ∈ e.texts, o.validate = .ok () := by
    simp [checks, or_imp, forall_and]
  rw [validate, check_bind_eq_ok_iff, checkOverlays_eq_ok_iff, map_fst_checks, all]
  simp [and_assoc]

end Edit
end Montage
