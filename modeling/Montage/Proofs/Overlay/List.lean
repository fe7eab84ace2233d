import Mathlib.Data.List.Basic
import Montage.Overlay.List

/-! The operations on overlay lists, each by what it makes of the ids and of the list. A function that
keeps ids may be applied to an overlay without any operation finding it elsewhere. -/
namespace Montage.Overlay

variable {α : Type} [Overlay α] {list next : List α} {i : OverlayId} {o : α} {f g : α → α}

theorem mem_ids : i ∈ ids list ↔ ∃ o ∈ list, id o = i := List.mem_map

theorem ids_append (xs ys : List α) : ids (xs ++ ys) = ids xs ++ ids ys := List.map_append

theorem ids_filter_ne (list : List α) (i : OverlayId) :
    ids (list.filter fun o => id o ≠ i) = (ids list).filter fun j => j ≠ i := by
  rw [ids, ids, List.filter_map]
  rfl

theorem mem_ids_filter_ne {j : OverlayId} :
    i ∈ ids (list.filter fun o => id o ≠ j) ↔ i ∈ ids list ∧ i ≠ j := by
  rw [ids_filter_ne, List.mem_filter, decide_eq_true_eq]

theorem add_eq_ok_iff : add list o = .ok next ↔ id o ∉ ids list ∧ next = list ++ [o] := by
  rw [add]
  split <;> simp_all [eq_comm]

theorem add_eq_error_iff {e : EditError} :
    add list o = .error e ↔ id o ∈ ids list ∧ e = .duplicateOverlay (id o) := by
  rw [add]
  split <;> simp_all [eq_comm]

theorem remove_eq_ok_iff : remove list i = .ok next ↔
    i ∈ ids list ∧ next = list.filter fun o => id o ≠ i := by
  rw [remove]
  split <;> simp_all [eq_comm]

theorem remove_eq_error_iff {e : EditError} :
    remove list i = .error e ↔ i ∉ ids list ∧ e = .overlayNotFound i := by
  rw [remove]
  split <;> simp_all [eq_comm]

theorem update_eq_ok_iff : update list i f = .ok next ↔
    i ∈ ids list ∧ next = modifyFirst i f list := by
  rw [update]
  split <;> simp_all [eq_comm]

theorem update_eq_error_iff {e : EditError} :
    update list i f = .error e ↔ i ∉ ids list ∧ e = .overlayNotFound i := by
  rw [update]
  split <;> simp_all [eq_comm]

theorem modifyFirst_cons (i : OverlayId) (f : α → α) (first : α) (rest : List α) :
    modifyFirst i f (first :: rest) =
      if id first = i then f first :: rest else first :: modifyFirst i f rest := rfl

/-- The overlay that an operation finds is the lowest one with the id. -/
theorem exists_lowest (among : i ∈ ids list) : ∃ below o above, list = below ++ o :: above ∧
    id o = i ∧ i ∉ ids below ∧ ∀ f, modifyFirst i f list = below ++ f o :: above := by
  induction list with
  | nil => cases among
  | cons first rest ih =>
    by_cases found : id first = i
    · exact ⟨[], first, rest, rfl, found, List.not_mem_nil, fun f => if_pos found⟩
    · have later := (List.mem_cons.1 among).resolve_left (Ne.symm found)
      obtain ⟨below, o, above, rfl, same, fresh, changed⟩ := ih later
      refine ⟨first :: below, o, above, rfl, same, ?_, fun f => ?_⟩
      · exact List.not_mem_cons_of_ne_of_not_mem (Ne.symm found) fresh
      · rw [modifyFirst_cons, if_neg found, changed f]
        rfl

theorem modifyFirst_of_not_mem (absent : i ∉ ids list) : modifyFirst i f list = list := by
  induction list with
  | nil => rfl
  | cons first rest ih =>
    obtain ⟨other, later⟩ := List.ne_and_not_mem_of_not_mem_cons absent
    rw [modifyFirst_cons, if_neg (Ne.symm other), ih later]

theorem filter_ne_of_not_mem (absent : i ∉ ids list) : list.filter (fun o => id o ≠ i) = list :=
  List.filter_eq_self.2 fun o among =>
    decide_eq_true fun same => absent (mem_ids.2 ⟨o, among, same⟩)

section
variable (f_keeps : ∀ o, id (f o) = id o)
include f_keeps

theorem ids_modifyFirst (i : OverlayId) (list : List α) : ids (modifyFirst i f list) = ids list := by
  induction list with
  | nil => rfl
  | cons first rest ih =>
    rw [modifyFirst_cons]
    split
    · exact congrArg (· :: ids rest) (f_keeps first)
    · exact congrArg (id first :: ·) ih

theorem modifyFirst_modifyFirst (i : OverlayId) (g : α → α) (list : List α) :
    modifyFirst i g (modifyFirst i f list) = modifyFirst i (g ∘ f) list := by
  induction list with
  | nil => rfl
  | cons first rest ih =>
    rw [modifyFirst_cons, modifyFirst_cons]
    split
    · rename_i found
      exact if_pos ((f_keeps first).trans found)
    · rename_i other
      rw [modifyFirst_cons, if_neg other, ih]

theorem filter_modifyFirst (i : OverlayId) (list : List α) :
    (modifyFirst i f list).filter (fun o => id o ≠ i) = list.filter fun o => id o ≠ i := by
  induction list with
  | nil => rfl
  | cons first rest ih =>
    rw [modifyFirst_cons]
    split
    · rename_i found
      simp [f_keeps, found]
    · rename_i other
      simpa [other] using ih

theorem filter_modifyFirst_of_ne {i j : OverlayId} (apart : i ≠ j) (list : List α) :
    (modifyFirst i f list).filter (fun o => id o ≠ j) =
      modifyFirst i f (list.filter fun o => id o ≠ j) := by
  induction list with
  | nil => rfl
  | cons first rest ih =>
    rw [modifyFirst_cons]
    split
    · rename_i found
      simp [f_keeps, found, apart, modifyFirst_cons]
    · rename_i other
      by_cases gone : id first = j
      · simpa [gone] using ih
      · simpa [gone, modifyFirst_cons, other] using ih

theorem modifyFirst_comm (g_keeps : ∀ o, id (g o) = id o) {i j : OverlayId} (apart : i ≠ j)
    (list : List α) :
    modifyFirst j g (modifyFirst i f list) = modifyFirst i f (modifyFirst j g list) := by
  induction list with
  | nil => rfl
  | cons first rest ih =>
    by_cases here : id first = i
    · simp [modifyFirst_cons, here, f_keeps, apart]
    · by_cases there : id first = j
      · simp [modifyFirst_cons, there, g_keeps, Ne.symm apart]
      · simp [modifyFirst_cons, here, there, ih]

end

end Montage.Overlay
