import Montage.Proofs.FileTree.Directories

/-! Files in a directory, by the way to that directory and their names. Such a file stands where its
name says, whatever way led to the directory. -/
namespace Montage

def Route.Admits (r : Route) (name : String) : Prop :=
  name.utf8ByteSize ≤ FileTree.nameLimit ∧ (r.child name).size < FileTree.pathLimit

instance (r : Route) (name : String) : Decidable (r.Admits name) :=
  inferInstanceAs (Decidable (_ ∧ _))

theorem Route.endsInSlash_child (r : Route) (name : String) :
    (r.child name).endsInSlash = false := by
  simp [endsInSlash, child, extend]

theorem Route.size_child_le (r : Route) (name : String) :
    (r.child name).size ≤ r.size + 1 + name.utf8ByteSize := by
  simp only [child, extend]
  split <;> omega

theorem Route.Admits.size_lt {r : Route} {name : String} (h : r.Admits name) :
    r.size < FileTree.pathLimit := by
  have longer : r.size ≤ (r.child name).size := by
    simp only [child, extend]
    omega
  exact longer.trans_lt h.2

namespace FileTree

section
variable {t : FileTree} {r : Route} {p : Location} {name : String}

theorem Leads.walkFrom_child (h : t.Leads r p) :
    t.walkFrom (r.child name).start (r.child name).steps = t.walkFrom p [.down name] := by
  change t.walkFrom r.start (r.steps ++ [.down name]) = _
  rw [walkFrom_append t (List.cons_ne_nil _ _), h]

theorem Leads.walk_child_eq_ok_iff (h : t.Leads r p) {spot : Spot} :
    t.walk (r.child name) = .ok spot ↔
      r.Admits name ∧ spot = ⟨p ++ [name], t.lookup (p ++ [name])⟩ := by
  rw [walk_eq_ok_iff, h.walkFrom_child, walkFrom_down_eq_ok_iff, Route.Admits]
  by_cases there : t.lookup (p ++ [name]) = some .directory
  · simp only [there, walkFrom, Except.ok.injEq]
    constructor
    · rintro ⟨size, short, ⟨-, rfl⟩ | ⟨other, -⟩⟩
      · exact ⟨⟨short, size⟩, rfl⟩
      · contradiction
    · rintro ⟨⟨short, size⟩, rfl⟩
      exact ⟨size, short, .inl ⟨trivial, rfl⟩⟩
  · simp only [there, false_and, false_or, ne_eq, not_false_eq_true, true_and, and_assoc]
    exact and_left_comm

theorem Leads.walk_child (h : t.Leads r p) (room : r.Admits name) :
    t.walk (r.child name) = .ok ⟨p ++ [name], t.lookup (p ++ [name])⟩ :=
  h.walk_child_eq_ok_iff.2 ⟨room, rfl⟩

theorem Leads.walk_child_of_not_admits (h : t.Leads r p) (long : ¬r.Admits name) :
    t.walk (r.child name) = .error .nameTooLong := by
  rw [FileTree.walk, h.walkFrom_child, walkFrom]
  by_cases size : pathLimit ≤ (r.child name).size
  · rw [if_pos size]
  · have wide : nameLimit < name.utf8ByteSize := by
      by_contra short
      exact long ⟨Nat.not_lt.1 short, Nat.not_le.1 size⟩
    rw [if_neg size, if_pos wide]

theorem Leads.read_child (h : t.Leads r p) (room : r.Admits name) :
    t.read (r.child name) =
      match t.lookup (p ++ [name]) with
      | some (.file bytes) => .ok bytes
      | some .directory => .error .isDirectory
      | none => .error .notFound := by
  rw [read, h.walk_child room]
  rcases t.lookup (p ++ [name]) with _ | bytes | _ <;> rfl

theorem Leads.read_child_eq_ok_iff (h : t.Leads r p) {bytes : Bytes} :
    t.read (r.child name) = .ok bytes ↔
      r.Admits name ∧ t.lookup (p ++ [name]) = some (.file bytes) := by
  constructor
  · intro found
    obtain ⟨spot, walked, -⟩ := bind_eq_ok_iff.1 found
    obtain ⟨room, -⟩ := h.walk_child_eq_ok_iff.1 walked
    rw [h.read_child room] at found
    split at found
    · rename_i there
      cases found
      exact ⟨room, there⟩
    · cases found
    · cases found
  · rintro ⟨room, there⟩
    rw [h.read_child room, there]

theorem read_eq_notFound_iff : t.read r = .error .notFound ↔
    t.walk r = .error .notFound ∨ ∃ q, t.walk r = .ok ⟨q, none⟩ := by
  rw [read, bind_eq_error_iff]
  constructor
  · rintro (missing | ⟨⟨q, node⟩, walked, rest⟩)
    · exact .inl missing
    · rcases node with _ | bytes | _
      · exact .inr ⟨q, walked⟩
      · cases rest
      · cases rest
  · rintro (missing | ⟨q, walked⟩)
    · exact .inl missing
    · exact .inr ⟨_, walked, rfl⟩

theorem Leads.read_child_eq_notFound_iff (h : t.Leads r p) :
    t.read (r.child name) = .error .notFound ↔
      r.Admits name ∧ t.lookup (p ++ [name]) = none := by
  constructor
  · intro missing
    rcases read_eq_notFound_iff.1 missing with lost | ⟨q, walked⟩
    · by_cases room : r.Admits name
      · cases lost.symm.trans (h.walk_child room)
      · cases lost.symm.trans (h.walk_child_of_not_admits room)
    · obtain ⟨room, same⟩ := h.walk_child_eq_ok_iff.1 walked
      exact ⟨room, (congrArg Spot.node same).symm⟩
  · rintro ⟨room, missing⟩
    rw [h.read_child room, missing]

/-- Only from a directory does a way go on. -/
theorem leads_of_walk_child {spot : Spot} (h : t.walk (r.child name) = .ok spot) :
    ∃ p, t.Leads r p := by
  have steps : t.walkFrom r.start (r.steps ++ [.down name]) = .ok spot := (walk_eq_ok_iff.1 h).2
  rw [walkFrom_append t (List.cons_ne_nil _ _)] at steps
  split at steps
  · rename_i p reached
    exact ⟨p, reached⟩
  · cases steps
  · cases steps
  · cases steps

theorem leads_of_read_child {bytes : Bytes} (h : t.read (r.child name) = .ok bytes) :
    ∃ p, t.Leads r p := by
  obtain ⟨spot, walked, -⟩ := bind_eq_ok_iff.1 h
  exact leads_of_walk_child walked

theorem Leads.exists_error_of_read_child (h : t.Leads r p)
    (missing : t.lookup (p ++ [name]) = none) : ∃ err, t.read (r.child name) = .error err := by
  cases found : t.read (r.child name) with
  | error err => exact ⟨err, rfl⟩
  | ok bytes =>
    obtain ⟨-, there⟩ := h.read_child_eq_ok_iff.1 found
    cases missing.symm.trans there

theorem Leads.present_child (h : t.Leads r p) (room : r.Admits name) :
    t.present (r.child name) = .ok (t.lookup (p ++ [name])).isSome := by
  rw [present, h.walk_child room]

theorem Leads.present_child_of_not_admits (h : t.Leads r p) (long : ¬r.Admits name) :
    t.present (r.child name) = .error .nameTooLong := by
  rw [present, h.walk_child_of_not_admits long]

theorem leads_of_present_child (h : t.present (r.child name) = .ok true) : ∃ p, t.Leads r p := by
  rw [present] at h
  split at h
  · rename_i walked
    exact leads_of_walk_child walked
  · cases h
  · cases h

theorem Leads.present_child_eq_ok_iff (h : t.Leads r p) {there : Bool} :
    t.present (r.child name) = .ok there ↔
      r.Admits name ∧ (t.lookup (p ++ [name])).isSome = there := by
  by_cases room : r.Admits name
  · rw [h.present_child room, Except.ok.injEq]
    exact (and_iff_right room).symm
  · simp [h.present_child_of_not_admits room, room]

theorem Leads.remove_child (h : t.Leads r p) (room : r.Admits name) :
    t.remove (r.child name) =
      match t.lookup (p ++ [name]) with
      | some (.file _) => .ok (t.erase (p ++ [name]))
      | some .directory => .error .isDirectory
      | none => .error .notFound := by
  rw [remove, h.walk_child room]
  rcases t.lookup (p ++ [name]) with _ | bytes | _ <;> rfl

/-- A file in a directory is written to its location, and nowhere else. Only a directory there, or a
name that is too long, is in its way. -/
theorem Leads.write_child_eq_ok_iff (h : t.Leads r p) {bytes : Bytes} {written : FileTree} :
    t.write (r.child name) bytes = .ok written ↔ r.Admits name ∧
      t.lookup (p ++ [name]) ≠ some .directory ∧ written = t.put (p ++ [name]) (.file bytes) := by
  have file := r.endsInSlash_child name
  simp only [write, file, Bool.false_eq_true, if_false]
  rw [bind_eq_ok_iff]
  constructor
  · rintro ⟨spot, walked, rest⟩
    obtain ⟨room, rfl⟩ := h.walk_child_eq_ok_iff.1 walked
    split at rest
    · cases rest
    · rename_i clear
      cases rest
      exact ⟨room, clear, rfl⟩
  · rintro ⟨room, clear, rfl⟩
    refine ⟨_, h.walk_child room, ?_⟩
    rw [if_neg clear]
    rfl

theorem Leads.write_child (h : t.Leads r p) (room : r.Admits name)
    (clear : t.lookup (p ++ [name]) ≠ some .directory) (bytes : Bytes) :
    t.write (r.child name) bytes = .ok (t.put (p ++ [name]) (.file bytes)) :=
  h.write_child_eq_ok_iff.2 ⟨room, clear, rfl⟩

/-- A file that is moved within a directory takes the place of the file there. -/
theorem Leads.rename_child (h : t.Leads r p) {source : String} {bytes : Bytes}
    (roomy : r.Admits source) (there : t.lookup (p ++ [source]) = some (.file bytes))
    (room : r.Admits name) (clear : t.lookup (p ++ [name]) ≠ some .directory)
    (other : name ≠ source) : t.rename (r.child source) (r.child name) =
      .ok ((t.erase (p ++ [source])).put (p ++ [name]) (.file bytes)) := by
  have read : t.read (r.child source) = .ok bytes := h.read_child_eq_ok_iff.2 ⟨roomy, there⟩
  have removed : t.remove (r.child source) = .ok (t.erase (p ++ [source])) := by
    rw [h.remove_child roomy, there]
  have leads : (t.erase (p ++ [source])).Leads r p := h.erase (by simp [there])
  have free : (t.erase (p ++ [source])).lookup (p ++ [name]) ≠ some .directory := by
    rwa [lookup_erase_of_ne (by simpa using other)]
  rw [rename, read]
  simp only [bind, Except.bind, removed]
  exact leads.write_child room free bytes

end

end FileTree
end Montage
