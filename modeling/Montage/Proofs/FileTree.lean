import Montage.FileTree.Route
import Montage.Proofs.Except
import Montage.Proofs.Path

/-! What stands where in a file tree after a change. A change at one location leaves all others as
they were. -/
namespace Montage

/-- Entries are kept or dropped by their keys. -/
theorem lookup_filter {α β : Type} [BEq α] [LawfulBEq α] (keep : α → Bool) (entries : List (α × β))
    (key : α) :
    (entries.filter fun e => keep e.1).lookup key = if keep key then entries.lookup key else none := by
  induction entries with
  | nil => simp
  | cons entry rest ih =>
    obtain ⟨first, value⟩ := entry
    rw [List.filter_cons]
    by_cases same : key = first
    · subst same
      by_cases kept : keep key = true <;> simp [kept, ih]
    · have other : (key == first) = false := beq_eq_false_iff_ne.2 same
      by_cases kept : keep first = true <;> simp [kept, ih, List.lookup_cons, other]

theorem lookup_filter_ne {α β : Type} [BEq α] [LawfulBEq α] [DecidableEq α] {p q : α} (h : q ≠ p)
    (entries : List (α × β)) : (entries.filter fun e => e.1 ≠ p).lookup q = entries.lookup q := by
  rw [lookup_filter fun r => decide (r ≠ p), if_pos (by simpa using h)]

theorem Route.stepsOf_of_isName {name : String} (h : Path.IsName name.toList) :
    stepsOf name.toList = [.down name] := by
  rw [stepsOf, Path.pieces_of_isName h]
  simp [Step.ofPiece, h.nonempty, h.here, h.above]

namespace FileTree

theorem lookup_put {t : FileTree} {p q : Location} {node : Node} (h : q ≠ []) :
    (t.put p node).lookup q = if q = p then some node else t.lookup q := by
  simp only [lookup, put, if_neg h, List.lookup_cons]
  by_cases same : q = p
  · simp [same]
  · rw [if_neg same, beq_eq_false_iff_ne.2 same]
    exact lookup_filter_ne same t.entries

theorem lookup_erase {t : FileTree} {p q : Location} (h : q ≠ []) :
    (t.erase p).lookup q = if q = p then none else t.lookup q := by
  simp only [lookup, erase, if_neg h]
  rw [lookup_filter fun r => decide (r ≠ p)]
  by_cases same : q = p <;> simp [same]

theorem lookup_put_self {t : FileTree} {p : Location} {node : Node} (h : p ≠ []) :
    (t.put p node).lookup p = some node := by
  rw [lookup_put h, if_pos rfl]

theorem lookup_put_of_ne {t : FileTree} {p q : Location} {node : Node} (h : q ≠ p) :
    (t.put p node).lookup q = t.lookup q := by
  by_cases root : q = []
  · simp only [root, lookup, if_true]
  · rw [lookup_put root, if_neg h]

theorem lookup_erase_of_ne {t : FileTree} {p q : Location} (h : q ≠ p) :
    (t.erase p).lookup q = t.lookup q := by
  by_cases root : q = []
  · simp only [root, lookup, if_true]
  · rw [lookup_erase root, if_neg h]

theorem put_put (t : FileTree) (p : Location) (node other : Node) :
    (t.put p node).put p other = t.put p other := by
  simp [put, List.filter_filter]

theorem ne_nil_of_lookup {t : FileTree} {p : Location} (h : t.lookup p ≠ some .directory) :
    p ≠ [] := by
  rintro rfl
  exact h rfl

theorem isPrefixOf_eq_false {p q : Location} (h : ¬p <+: q) : p.isPrefixOf q = false := by
  rwa [← Bool.not_eq_true, List.isPrefixOf_iff_prefix]

theorem lookup_prune {t : FileTree} {p : Location} (h : p ≠ []) (q : Location) :
    (t.prune p).lookup q = if p <+: q then none else t.lookup q := by
  by_cases root : q = []
  · have outside : ¬p <+: q := fun inside => h (List.prefix_nil.1 (root ▸ inside))
    rw [if_neg outside, root]
    rfl
  simp only [lookup, prune, if_neg root]
  rw [lookup_filter fun r => !p.isPrefixOf r]
  by_cases inside : p <+: q
  · rw [if_pos inside, List.isPrefixOf_iff_prefix.2 inside]
    rfl
  · rw [if_neg inside, isPrefixOf_eq_false inside]
    rfl

theorem lookup_below {t : FileTree} {p q : Location} (h : q ≠ []) :
    (t.below p).lookup q = t.lookup (p ++ q) := by
  have nonempty : p ++ q ≠ [] := by simp [h]
  simp only [lookup, below, if_neg h, if_neg nonempty]
  induction t.entries with
  | nil => rfl
  | cons entry rest ih =>
    obtain ⟨r, node⟩ := entry
    rw [List.filterMap_cons, List.lookup_cons]
    by_cases inside : p.isPrefixOf r = true ∧ r ≠ p
    · obtain ⟨tail, rfl⟩ := List.isPrefixOf_iff_prefix.1 inside.1
      have same : (p ++ q == p ++ tail) = (q == tail) := by
        rw [Bool.eq_iff_iff, beq_iff_eq, beq_iff_eq, List.append_cancel_left_eq]
      simp only [inside.1, inside.2, ne_eq, not_false_eq_true, decide_true, Bool.and_self,
        if_true, List.drop_left, List.lookup_cons, same, ih]
    · have other : (p ++ q == r) = false := by
        rw [beq_eq_false_iff_ne]
        rintro rfl
        exact inside ⟨List.isPrefixOf_iff_prefix.2 (List.prefix_append p q), by simpa using h⟩
      have outside : (p.isPrefixOf r && decide (r ≠ p)) = false := by
        rw [← Bool.not_eq_true, Bool.and_eq_true, decide_eq_true_eq]
        exact inside
      simp only [outside, Bool.false_eq_true, if_false, other, ih]

/-- What is found below a location that was changed as a tree of its own. -/
theorem lookup_within {t : FileTree} {p q : Location} {change : FileTree → FileTree} (h : q ≠ []) :
    (t.within p change).lookup (p ++ q) = (change (t.below p)).lookup q := by
  have nonempty : p ++ q ≠ [] := by simp [h]
  have outside : (t.entries.filter fun e => !p.isPrefixOf e.1 || e.1 = p).lookup (p ++ q) = none := by
    rw [List.lookup_eq_none_iff]
    intro entry kept
    obtain ⟨-, apart⟩ := List.mem_filter.1 kept
    rw [bne_iff_ne]
    intro same
    rw [← same, List.isPrefixOf_iff_prefix.2 (List.prefix_append p q)] at apart
    simp [h] at apart
  have inside : ∀ entries : List (Location × Node),
      (entries.map fun e => (p ++ e.1, e.2)).lookup (p ++ q) = entries.lookup q := by
    intro entries
    induction entries with
    | nil => rfl
    | cons entry rest ih =>
      have same : (p ++ q == p ++ entry.1) = (q == entry.1) := by
        rw [Bool.eq_iff_iff, beq_iff_eq, beq_iff_eq, List.append_cancel_left_eq]
      rw [List.map_cons, List.lookup_cons, List.lookup_cons, same, ih]
  simp only [lookup, within, if_neg h, if_neg nonempty, List.lookup_append, outside, inside,
    Option.none_or]

/-- What stands at the location itself is not part of the change. -/
theorem lookup_within_self {t : FileTree} {p : Location} {change : FileTree → FileTree} {node : Node}
    (h : t.lookup p = some node) : (t.within p change).lookup p = some node := by
  by_cases root : p = []
  · rw [lookup, if_pos root] at h ⊢
    exact h
  rw [lookup, if_neg root] at h
  have kept : (t.entries.filter fun e => !p.isPrefixOf e.1 || e.1 = p).lookup p = some node := by
    rw [lookup_filter fun r => !p.isPrefixOf r || r = p, if_pos (by simp), h]
  simp only [lookup, within, if_neg root, List.lookup_append, kept, Option.some_or]

theorem lookup_within_of_not_prefix {t : FileTree} {p q : Location} {change : FileTree → FileTree}
    (h : ¬p <+: q) : (t.within p change).lookup q = t.lookup q := by
  by_cases root : q = []
  · simp [lookup, root]
  have kept : (t.entries.filter fun e => !p.isPrefixOf e.1 || e.1 = p).lookup q =
      t.entries.lookup q := by
    rw [lookup_filter fun r => !p.isPrefixOf r || r = p, if_pos]
    simp [isPrefixOf_eq_false h]
  have inside : ((change (t.below p)).entries.map fun e => (p ++ e.1, e.2)).lookup q = none := by
    rw [List.lookup_eq_none_iff]
    intro entry among
    obtain ⟨e, -, rfl⟩ := List.mem_map.1 among
    rw [bne_iff_ne]
    rintro rfl
    exact h (List.prefix_append p e.1)
  simp only [lookup, within, if_neg root, List.lookup_append, kept, inside, Option.or_none]

def Fits (dir name : String) : Prop :=
  name.utf8ByteSize ≤ nameLimit ∧ dir.utf8ByteSize + 1 + name.utf8ByteSize < pathLimit

instance (dir name : String) : Decidable (Fits dir name) :=
  inferInstanceAs (Decidable (_ ∧ _))

theorem along_of_isName {r : Route} {name : String} (h : Path.IsName name.toList) :
    r.along name = r.child name := by
  rw [Route.along, Route.stepsOf_of_isName h, Route.child]

end FileTree
end Montage
