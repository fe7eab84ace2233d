import Mathlib.Logic.Function.Iterate
import Montage.Proofs.Store.Saving

/-! What a store has under an id: a value, or none. All its operations agree on that. -/
namespace Montage.LocalStore

open Store (checkKey)

def found (id : AssetId) : Option Bytes → Except StorageError Bytes
  | some bytes => .ok bytes
  | none => .error (.notFound id)

def rooted (s : LocalStore) (t : FileTree) : FileTree := (t.makeDirectories s.root).1

/-- A store has a value under an id, or none, however often it is tried to make its root. -/
def Offers (s : LocalStore) (t : FileTree) (id : AssetId) (value : Option Bytes) : Prop :=
  ∀ attempts, s.load (s.rooted^[attempts] t) id = found id value

variable {s : LocalStore} {t : FileTree} {id : AssetId} {value : Option Bytes} {p : Location}

theorem keyError_eq_notFound_iff {key : String} {e : IoError} :
    keyError key e = .notFound key ↔ e = .notFound := by
  cases e <;> simp [keyError]

theorem load_eq_notFound_iff : s.load t id = .error (.notFound id) ↔
    checkKey id = .ok id ∧ t.read (s.place id) = .error .notFound := by
  rw [load, checkKey]
  by_cases valid : Store.isKey id.toList = true
  · rw [if_pos valid]
    change (t.read (s.place id)).mapError (keyError id) = _ ↔ _
    simp only [mapError_eq_error_iff, keyError_eq_notFound_iff]
    simp
  · rw [if_neg valid]
    simp [bind, Except.bind]

theorem load_eq_found_iff (leads : t.Leads s.root p) : s.load t id = found id value ↔
    checkKey id = .ok id ∧ s.root.Admits id ∧ t.lookup (p ++ [id]) = value.map .file := by
  cases value with
  | none =>
    rw [found, load_eq_notFound_iff, place, leads.read_child_eq_notFound_iff]
    rfl
  | some bytes =>
    rw [found, load_eq_ok_iff]
    constructor
    · rintro ⟨key, valid, read⟩
      obtain ⟨-, rfl⟩ := Store.checkKey_eq_ok_iff.1 valid
      exact ⟨valid, leads.read_child_eq_ok_iff.1 read⟩
    · rintro ⟨valid, there⟩
      exact ⟨id, valid, leads.read_child_eq_ok_iff.2 there⟩

theorem leads_of_load {bytes : Bytes} (h : s.load t id = .ok bytes) : ∃ p, t.Leads s.root p := by
  obtain ⟨key, -, read⟩ := load_eq_ok_iff.1 h
  exact FileTree.leads_of_read_child read

theorem contains_of_load (h : s.load t id = found id value) :
    s.contains t id = .ok value.isSome := by
  cases value with
  | none =>
    obtain ⟨valid, missing⟩ := load_eq_notFound_iff.1 h
    have absent : t.present (s.place id) = .ok false := by
      rcases FileTree.read_eq_notFound_iff.1 missing with lost | ⟨q, walked⟩
      · rw [FileTree.present, lost]
      · rw [FileTree.present, walked]
        rfl
    simp only [contains, valid, bind, Except.bind, absent]
    rfl
  | some bytes =>
    obtain ⟨p, leads⟩ := leads_of_load h
    obtain ⟨valid, room, there⟩ := (load_eq_found_iff leads).1 h
    have present := leads.present_child room
    simp only [contains, valid, bind, Except.bind, place, present, there]
    rfl

theorem delete_of_absent (h : s.load t id = found id none) :
    s.delete t id = (t, .error (.notFound id)) := by
  obtain ⟨valid, missing⟩ := load_eq_notFound_iff.1 h
  have absent : t.remove (s.place id) = .error .notFound := by
    rcases FileTree.read_eq_notFound_iff.1 missing with lost | ⟨q, walked⟩
    · rw [FileTree.remove, lost]
      rfl
    · rw [FileTree.remove, walked]
      rfl
  simp only [delete, valid, absent, keyError]

theorem delete_of_present {bytes : Bytes} (leads : t.Leads s.root p)
    (h : s.load t id = found id (some bytes)) :
    s.delete t id = (t.erase (p ++ [id]), .ok ()) := by
  obtain ⟨valid, room, there⟩ := (load_eq_found_iff leads).1 h
  have removed : t.remove (s.place id) = .ok (t.erase (p ++ [id])) := by
    rw [place, leads.remove_child room, there]
    rfl
  simp only [delete, valid, removed]

theorem rooted_of_leads (leads : t.Leads s.root p) (short : s.root.size < FileTree.pathLimit) :
    s.rooted t = t := by
  rw [rooted, FileTree.makeDirectories_of_leads leads short]

/-- What is stored is there whether its root is made or not. -/
theorem offers_of_load {bytes : Bytes} (h : s.load t id = .ok bytes) :
    s.Offers t id (some bytes) := by
  obtain ⟨p, leads⟩ := leads_of_load h
  have stored : s.load t id = found id (some bytes) := h
  obtain ⟨-, room, -⟩ := (load_eq_found_iff leads).1 stored
  intro attempts
  rw [Function.iterate_fixed (rooted_of_leads leads room.size_lt)]
  exact h

theorem lookup_rooted_of_directory {q : Location} (there : t.lookup q = some .directory)
    (attempts : Nat) : (s.rooted^[attempts] t).lookup q = some .directory := by
  induction attempts generalizing t with
  | zero => exact there
  | succ attempts ih => exact ih ((t.grows_makeAll s.root.ancestors).lookup_of_some there)

theorem exists_root (s : LocalStore) (t : FileTree) :
    ∃ p, ∀ attempts p', (s.rooted^[attempts] t).Leads s.root p' → p' = p := by
  by_cases made : ∃ attempts p, (s.rooted^[attempts] t).Leads s.root p
  · obtain ⟨attempts, p, leads⟩ := made
    refine ⟨p, fun attempts' p' leads' => ?_⟩
    have later := leads.of_directories fun q there =>
      lookup_rooted_of_directory (s := s) there attempts'
    have later' := leads'.of_directories fun q there =>
      lookup_rooted_of_directory (s := s) there attempts
    rw [← Function.iterate_add_apply, Nat.add_comm] at later
    rw [← Function.iterate_add_apply] at later'
    exact later'.location_eq later
  · exact ⟨[], fun attempts p leads => absurd ⟨attempts, p, leads⟩ made⟩

end Montage.LocalStore
