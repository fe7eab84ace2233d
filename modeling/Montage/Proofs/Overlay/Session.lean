import Mathlib.Data.List.Nodup
import Montage.Proofs.Overlay.Patch

/-! Editing sessions. However long a session is, no two overlays have one id, so an operation finds the
one overlay it means, and the overlays stand in the order in which they were last added. -/
namespace Montage

namespace Overlay

section
variable {α P : Type} [Overlay α] [Patch P α] {changes : List (Change α P)} {n : Nat}
  {i j : OverlayId}

theorem session_append (changes : List (Change α P)) (c : Change α P) :
    session (changes ++ [c]) = change (session changes) c := by
  rw [session, List.foldl_append]
  rfl

def HasAdded (changes : List (Change α P)) (n : Nat) (i : OverlayId) : Prop :=
  ∃ o, changes[n]? = some (.add o) ∧ id o = i ∧ i ∉ ids (session (changes.take n))

structure HasLastAdded (changes : List (Change α P)) (n : Nat) (i : OverlayId) : Prop where
  added : HasAdded changes n i
  last : ∀ m, n < m → ¬ HasAdded changes m i

def AddedBefore (changes : List (Change α P)) (i j : OverlayId) : Prop :=
  ∃ m n, m < n ∧ HasLastAdded changes m i ∧ HasLastAdded changes n j

theorem HasAdded.lt (h : HasAdded changes n i) : n < changes.length := by
  obtain ⟨o, found, -⟩ := h
  exact (List.getElem?_eq_some_iff.1 found).1

theorem hasAdded_append_iff {c : Change α P} (earlier : n < changes.length) :
    HasAdded (changes ++ [c]) n i ↔ HasAdded changes n i := by
  rw [HasAdded, HasAdded, List.getElem?_append_left earlier,
    List.take_append_of_le_length (Nat.le_of_lt earlier)]

theorem hasAdded_last_iff {c : Change α P} : HasAdded (changes ++ [c]) changes.length i ↔
    ∃ o, c = .add o ∧ id o = i ∧ i ∉ ids (session changes) := by
  rw [HasAdded, List.getElem?_concat_length, List.take_left]
  simp

/-- What is there cannot be added once more, so a further change keeps when it was added last. -/
theorem HasLastAdded.append (h : HasLastAdded changes n i) (present : i ∈ ids (session changes))
    (c : Change α P) : HasLastAdded (changes ++ [c]) n i := by
  refine ⟨(hasAdded_append_iff h.added.lt).2 h.added, fun m later again => ?_⟩
  have bound := again.lt
  rw [List.length_append, List.length_singleton, Nat.lt_succ_iff] at bound
  rcases Nat.lt_or_eq_of_le bound with earlier | rfl
  · exact h.last m later ((hasAdded_append_iff earlier).1 again)
  · obtain ⟨o, -, -, absent⟩ := hasAdded_last_iff.1 again
    exact absent present

theorem hasLastAdded_of_add {o : α} (absent : id o ∉ ids (session changes)) :
    HasLastAdded (changes ++ [.add o]) changes.length (id o) := by
  refine ⟨hasAdded_last_iff.2 ⟨o, rfl, rfl, absent⟩, fun m later again => ?_⟩
  have bound := again.lt
  rw [List.length_append, List.length_singleton] at bound
  omega

structure InOrder (changes : List (Change α P)) (present : List OverlayId) : Prop where
  distinct : present.Nodup
  added : ∀ i ∈ present, ∃ n, HasLastAdded changes n i
  order : present.Pairwise (AddedBefore changes)

theorem InOrder.sublist {present rest : List OverlayId} (h : InOrder changes present)
    (part : rest.Sublist present) : InOrder changes rest :=
  ⟨h.distinct.sublist part, fun i among => h.added i (part.subset among), h.order.sublist part⟩

theorem InOrder.append (h : InOrder changes (ids (session changes))) (c : Change α P) :
    InOrder (changes ++ [c]) (ids (session changes)) := by
  refine ⟨h.distinct, fun i among => ?_, h.order.imp_of_mem fun here there before => ?_⟩
  · obtain ⟨n, added⟩ := h.added i among
    exact ⟨n, added.append among c⟩
  · obtain ⟨m, n, earlier, first, second⟩ := before
    exact ⟨m, n, earlier, first.append here c, second.append there c⟩

theorem InOrder.add {o : α} (h : InOrder changes (ids (session changes)))
    (absent : id o ∉ ids (session changes)) :
    InOrder (changes ++ [.add o]) (ids (session changes ++ [o])) := by
  have old := h.append (.add o)
  have new := hasLastAdded_of_add absent
  rw [ids_append]
  refine ⟨?_, ?_, ?_⟩
  · exact List.Nodup.append old.distinct (List.nodup_singleton _) (List.disjoint_singleton.2 absent)
  · exact List.forall_mem_append.2 ⟨old.added, List.forall_mem_singleton.2 ⟨_, new⟩⟩
  · refine List.pairwise_append.2 ⟨old.order, List.pairwise_singleton _ _, fun i among => ?_⟩
    obtain ⟨m, added⟩ := h.added i among
    exact List.forall_mem_singleton.2
      ⟨m, changes.length, added.added.lt, added.append among _, new⟩

end

section
variable {α P : Type} [Overlay α] [FieldPatch P α]

theorem inOrder_session (changes : List (Change α P)) :
    InOrder changes (ids (session changes)) := by
  induction changes using List.reverseRecOn with
  | nil => exact ⟨List.nodup_nil, fun _ among => absurd among List.not_mem_nil, .nil⟩
  | append_singleton changes c ih =>
    rw [session_append]
    cases c with
    | add o =>
      rw [change_add]
      split_ifs with taken
      · exact ih.append _
      · exact ih.add taken
    | remove i =>
      rw [change_remove, ids_filter_ne]
      exact (ih.append _).sublist List.filter_sublist
    | update i p =>
      rw [change_update, ids_modifyFirst (FieldPatch.id_apply p)]
      exact ih.append _

theorem exists_only {changes : List (Change α P)} {i : OverlayId}
    (among : i ∈ ids (session changes)) : ∃ below o above, session changes = below ++ o :: above ∧
      id o = i ∧ i ∉ ids (below ++ above) ∧ (∀ f, modifyFirst i f (session changes) =
        below ++ f o :: above) ∧ (session changes).filter (fun o => id o ≠ i) = below ++ above := by
  have distinct := (inOrder_session changes).distinct
  obtain ⟨below, o, above, parts, rfl, fresh, changed⟩ := exists_lowest among
  rw [parts, ids_append] at distinct
  have free : id o ∉ ids (below ++ above) := by
    rw [ids_append, List.mem_append, not_or]
    exact ⟨fresh, (List.nodup_cons.1 (List.nodup_append.1 distinct).2.1).1⟩
  refine ⟨below, o, above, parts, rfl, free, changed, ?_⟩
  have rest := filter_ne_of_not_mem free
  rw [List.filter_append] at rest
  rw [parts, List.filter_append, List.filter_cons_of_neg (by simp), rest]

end

structure SessionLaws (P : Type) {α : Type} [Overlay α] [FieldPatch P α] : Prop where
  distinct : ∀ changes : List (Change α P), (ids (session changes)).Nodup
  added : ∀ changes : List (Change α P), ∀ i ∈ ids (session changes), ∃ n, HasLastAdded changes n i
  order : ∀ changes : List (Change α P), (ids (session changes)).Pairwise (AddedBefore changes)
  add_refused : ∀ (changes : List (Change α P)) (o : α) (e : EditError),
    add (session changes) o = .error e ↔ id o ∈ ids (session changes) ∧ e = .duplicateOverlay (id o)
  remove_refused : ∀ (changes : List (Change α P)) (i : OverlayId) (e : EditError),
    remove (session changes) i = .error e ↔ i ∉ ids (session changes) ∧ e = .overlayNotFound i
  update_refused : ∀ (changes : List (Change α P)) (i : OverlayId) (p : P) (e : EditError),
    update (session changes) i (Patch.apply p) = .error e ↔
      i ∉ ids (session changes) ∧ e = .overlayNotFound i
  on_top : ∀ (changes : List (Change α P)) (o : α) (next : List α),
    add (session changes) o = .ok next → next = session changes ++ [o]
  removed : ∀ (changes : List (Change α P)) (i : OverlayId) (next : List α),
    remove (session changes) i = .ok next → ∃ below o above,
      session changes = below ++ o :: above ∧ id o = i ∧ i ∉ ids (below ++ above) ∧
      next = below ++ above
  updated : ∀ (changes : List (Change α P)) (i : OverlayId) (p : P) (next : List α),
    update (session changes) i (Patch.apply p) = .ok next → ∃ below o above,
      session changes = below ++ o :: above ∧ id o = i ∧ i ∉ ids (below ++ above) ∧
      next = below ++ Patch.apply p o :: above ∧ id (Patch.apply p o) = i ∧
      ∀ field ∈ FieldPatch.fields (α := α) (P := P),
        field.get (Patch.apply p o) = (field.given? p).getD (field.get o)
  taken_back : ∀ (changes : List (Change α P)) (o : α) (next : List α),
    add (session changes) o = .ok next → remove next (id o) = .ok (session changes)

theorem sessionLaws (P : Type) {α : Type} [Overlay α] [FieldPatch P α] : SessionLaws P where
  distinct changes := (inOrder_session changes).distinct
  added changes := (inOrder_session changes).added
  order changes := (inOrder_session changes).order
  add_refused _ _ _ := add_eq_error_iff
  remove_refused _ _ _ := remove_eq_error_iff
  update_refused _ _ _ _ := update_eq_error_iff
  on_top _ _ _ h := (add_eq_ok_iff.1 h).2
  removed changes i next h := by
    obtain ⟨present, rfl⟩ := remove_eq_ok_iff.1 h
    obtain ⟨below, o, above, parts, same, free, -, rest⟩ := exists_only present
    exact ⟨below, o, above, parts, same, free, rest⟩
  updated changes i p next h := by
    obtain ⟨present, rfl⟩ := update_eq_ok_iff.1 h
    obtain ⟨below, o, above, parts, same, free, changed, -⟩ := exists_only present
    exact ⟨below, o, above, parts, same, free, changed _, (FieldPatch.id_apply p o).trans same,
      fun field _ => field.get_step o p⟩
  taken_back changes o next h := by
    obtain ⟨absent, rfl⟩ := add_eq_ok_iff.1 h
    rw [remove_eq_ok_iff, ids_append, List.filter_append, filter_ne_of_not_mem absent,
      List.filter_cons_of_neg (by simp), List.filter_nil, List.append_nil]
    exact ⟨List.mem_append_right _ (List.mem_singleton_self _), rfl⟩

end Overlay

theorem sessions_keep_their_order : Overlay.SessionLaws TextPatch ∧ Overlay.SessionLaws ImagePatch :=
  ⟨Overlay.sessionLaws TextPatch, Overlay.sessionLaws ImagePatch⟩

end Montage
