import Montage.Proofs.FileTree.Children

/-! Changes that stay in a directory. Each operation on a name there changes nothing elsewhere, and what
is done step by step changes no more than its steps. -/
namespace Montage.FileTree

/-- All that changes in a tree lies in the directory at the end of a way, under certain names, apart from
directories that are made on that way. No directory is lost. -/
structure ChangesIn (r : Route) (names : String → Prop) (t after : FileTree) : Prop where
  kept : ∀ q, t.lookup q = some .directory → after.lookup q = some .directory
  made : ∀ q, after.lookup q = some .directory →
    t.lookup q = some .directory ∨ ∃ way ∈ r.ancestors, after.Leads way q
  others : ∀ q, after.lookup q = t.lookup q ∨
    t.lookup q = none ∧ after.lookup q = some .directory ∨
    ∃ p name, after.Leads r p ∧ names name ∧ q = p ++ [name]

namespace ChangesIn

variable {r : Route} {names : String → Prop} {t u v : FileTree} {name : String}

theorem refl (r : Route) (names : String → Prop) (t : FileTree) : ChangesIn r names t t :=
  ⟨fun _ there => there, fun _ there => .inl there, fun _ => .inl rfl⟩

theorem trans (first : ChangesIn r names t u) (next : ChangesIn r names u v) :
    ChangesIn r names t v where
  kept q there := next.kept q (first.kept q there)
  made q there := by
    rcases next.made q there with before | made
    · rcases first.made q before with old | ⟨way, among, leads⟩
      · exact .inl old
      · exact .inr ⟨way, among, leads.of_directories next.kept⟩
    · exact .inr made
  others q := by
    have inside (h : ∃ p name, u.Leads r p ∧ names name ∧ q = p ++ [name]) :
        ∃ p name, v.Leads r p ∧ names name ∧ q = p ++ [name] := by
      obtain ⟨p, name, leads, used, place⟩ := h
      exact ⟨p, name, leads.of_directories next.kept, used, place⟩
    rcases next.others q with same | ⟨missing, made⟩ | later
    · rcases first.others q with old | ⟨missing, made⟩ | early
      · exact .inl (same.trans old)
      · exact .inr (.inl ⟨missing, same.trans made⟩)
      · exact .inr (.inr (inside early))
    · rcases first.others q with old | ⟨-, before⟩ | early
      · exact .inr (.inl ⟨old ▸ missing, made⟩)
      · cases missing.symm.trans before
      · exact .inr (.inr (inside early))
    · exact .inr (.inr later)

theorem mono {more : String → Prop} (h : ChangesIn r names t u)
    (all : ∀ name, names name → more name) : ChangesIn r more t u where
  kept := h.kept
  made := h.made
  others q := by
    rcases h.others q with same | made | ⟨p, name, leads, used, place⟩
    · exact .inl same
    · exact .inr (.inl made)
    · exact .inr (.inr ⟨p, name, leads, all name used, place⟩)

theorem of_grows (h : t.Grows u r.ancestors) : ChangesIn r names t u where
  kept q := h.lookup_of_some
  made q there := by
    rcases h q with same | ⟨-, -, way, among, leads⟩
    · exact .inl (same ▸ there)
    · exact .inr ⟨way, among, leads⟩
  others q := by
    rcases h q with same | ⟨missing, made, -⟩
    · exact .inl same
    · exact .inr (.inl ⟨missing, made⟩)

/-- A change at one place, where no directory stands before or after. -/
theorem of_lookup {p : Location} (leads : t.Leads r p) (used : names name)
    (before : t.lookup (p ++ [name]) ≠ some .directory)
    (after : u.lookup (p ++ [name]) ≠ some .directory)
    (same : ∀ q, q ≠ p ++ [name] → u.lookup q = t.lookup q) : ChangesIn r names t u := by
  have kept : ∀ q, t.lookup q = some .directory → u.lookup q = some .directory := by
    intro q there
    rw [same q fun place => before (place ▸ there), there]
  refine ⟨kept, ?_, ?_⟩
  · intro q there
    rw [← same q fun place => after (place ▸ there)]
    exact .inl there
  · intro q
    by_cases place : q = p ++ [name]
    · exact .inr (.inr ⟨p, name, leads.of_directories kept, used, place⟩)
    · exact .inl (same q place)

theorem write {bytes : Bytes} (h : t.write (r.child name) bytes = .ok u) (used : names name) :
    ChangesIn r names t u := by
  obtain ⟨spot, walked⟩ : ∃ spot, t.walk (r.child name) = .ok spot := by
    rw [FileTree.write, r.endsInSlash_child, if_neg Bool.false_ne_true] at h
    obtain ⟨spot, walked, -⟩ := bind_eq_ok_iff.1 h
    exact ⟨spot, walked⟩
  obtain ⟨p, leads⟩ := leads_of_walk_child walked
  obtain ⟨-, clear, rfl⟩ := leads.write_child_eq_ok_iff.1 h
  refine of_lookup leads used clear ?_ fun q other => lookup_put_of_ne other
  rw [lookup_put_self (by simp)]
  simp

theorem remove (h : t.remove (r.child name) = .ok u) (used : names name) : ChangesIn r names t u := by
  obtain ⟨spot, walked, -⟩ := bind_eq_ok_iff.1 h
  obtain ⟨p, leads⟩ := leads_of_walk_child walked
  obtain ⟨room, -⟩ := leads.walk_child_eq_ok_iff.1 walked
  rw [leads.remove_child room] at h
  split at h
  · rename_i bytes there
    cases h
    refine of_lookup leads used (by simp [there]) ?_ fun q other => lookup_erase_of_ne other
    rw [lookup_erase (by simp), if_pos rfl]
    simp
  · cases h
  · cases h

theorem rename {source : String} (h : t.rename (r.child source) (r.child name) = .ok u)
    (first : names source) (used : names name) : ChangesIn r names t u := by
  obtain ⟨bytes, -, rest⟩ := bind_eq_ok_iff.1 h
  obtain ⟨removed, removes, writes⟩ := bind_eq_ok_iff.1 rest
  exact (ChangesIn.remove removes first).trans (.write writes used)

end ChangesIn
end Montage.FileTree
