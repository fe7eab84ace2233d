import Montage.Proofs.FileTree.Children
import Montage.Store.Local

/-! How a save in a directory goes, and what a failed one leaves there. A new value is on its way
through a temporary file, and only a write that is cut off leaves that behind. -/
namespace Montage

open Store (checkKey isKey)

theorem Store.checkKey_eq_ok_iff {id : AssetId} {key : String} :
    checkKey id = .ok key ↔ isKey id.toList = true ∧ key = id := by
  rw [checkKey]
  split
  · simp [*, eq_comm]
  · simp [*]

namespace LocalStore

theorem temporaryName_ne (key : String) (process : UInt32) (sequence : UInt64) :
    temporaryName key process sequence ≠ key := by
  intro same
  have longer := congrArg (fun name : String => name.toList.length) same
  simp only [temporaryName, String.toList_append, List.length_append] at longer
  have point : ".".toList.length = 1 := rfl
  omega

def temporaryLocation (s : LocalStore) (p : Location) (key : String) : Location :=
  p ++ [temporaryName key s.process s.sequence]

def withdrawn (s : LocalStore) (grown : FileTree) (p : Location) (key : String) (bytes : Bytes) :
    FileTree :=
  (grown.put (s.temporaryLocation p key) (.file bytes)).erase (s.temporaryLocation p key)

def saved (s : LocalStore) (grown : FileTree) (p : Location) (key : String) (bytes : Bytes) :
    FileTree :=
  (s.withdrawn grown p key bytes).put (p ++ [key]) (.file bytes)

section
variable {s : LocalStore} {grown : FileTree} {p : Location} {key : String} {bytes : Bytes}

theorem temporaryLocation_ne (s : LocalStore) (p : Location) (key : String) :
    s.temporaryLocation p key ≠ p ++ [key] := by
  intro same
  have names := List.append_cancel_left same
  rw [List.cons.injEq] at names
  exact temporaryName_ne key s.process s.sequence names.1

theorem lookup_written (grown : FileTree) (p : Location) (key : String) (bytes : Bytes) :
    (grown.put (s.temporaryLocation p key) (.file bytes)).lookup (s.temporaryLocation p key) =
      some (.file bytes) :=
  FileTree.lookup_put_self (by simp [temporaryLocation])

theorem lookup_withdrawn (q : Location) : (s.withdrawn grown p key bytes).lookup q =
    if q = s.temporaryLocation p key then none else grown.lookup q := by
  rw [withdrawn]
  by_cases temporary : q = s.temporaryLocation p key
  · rw [if_pos temporary, FileTree.lookup_erase (by simp [temporary, temporaryLocation]),
      if_pos temporary]
  · rw [if_neg temporary, FileTree.lookup_erase_of_ne temporary, FileTree.lookup_put_of_ne temporary]

theorem lookup_withdrawn_key : (s.withdrawn grown p key bytes).lookup (p ++ [key]) =
    grown.lookup (p ++ [key]) := by
  rw [lookup_withdrawn, if_neg (s.temporaryLocation_ne p key).symm]

theorem lookup_saved {q : Location} (nonempty : q ≠ []) : (s.saved grown p key bytes).lookup q =
    if q = p ++ [key] then .some (.file bytes)
    else if q = s.temporaryLocation p key then none else grown.lookup q := by
  rw [saved, FileTree.lookup_put nonempty, lookup_withdrawn]

theorem leads_withdrawn {r : Route} {p' : Location} (leads : grown.Leads r p')
    (clear : grown.lookup (s.temporaryLocation p key) ≠ some .directory) :
    (s.withdrawn grown p key bytes).Leads r p' :=
  (leads.put clear).erase (by simp [lookup_written])

theorem leads_saved {r : Route} {p' : Location} (leads : grown.Leads r p')
    (free : grown.lookup (s.temporaryLocation p key) ≠ some .directory)
    (clear : grown.lookup (p ++ [key]) ≠ some .directory) :
    (s.saved grown p key bytes).Leads r p' :=
  (leads_withdrawn leads free).put (by rwa [lookup_withdrawn_key])

end

inductive Saves (s : LocalStore) (trouble : Option SaveTrouble) (t : FileTree) (key : String)
    (bytes : Bytes) : FileTree → Except StorageError Unit → Prop
  | unmade (grown : FileTree) (grows : t.Grows grown s.root.ancestors) (cause : IoError) :
      Saves s trouble t key bytes grown (.error (.io cause))
  | unwritten (grown : FileTree) (grows : t.Grows grown s.root.ancestors) (cause : IoError) :
      Saves s trouble t key bytes grown (.error (.writeFailed key cause))
  | cutOff (grown : FileTree) (made : t.makeDirectories s.root = (grown, .ok ())) (p : Location)
      (leads : grown.Leads s.root p)
      (clear : grown.lookup (s.temporaryLocation p key) ≠ some .directory) (written : Nat)
      (cause : IoError) (struck : trouble = some (.writing written cause)) :
      Saves s trouble t key bytes
        (grown.put (s.temporaryLocation p key) (.file (bytes.take written)))
        (.error (.writeFailed key cause))
  | unmoved (grown : FileTree) (made : t.makeDirectories s.root = (grown, .ok ())) (p : Location)
      (leads : grown.Leads s.root p)
      (clear : grown.lookup (s.temporaryLocation p key) ≠ some .directory) (cause : IoError) :
      Saves s trouble t key bytes (s.withdrawn grown p key bytes) (.error (.writeFailed key cause))
  | saved (grown : FileTree) (made : t.makeDirectories s.root = (grown, .ok ())) (p : Location)
      (leads : grown.Leads s.root p)
      (clear : grown.lookup (s.temporaryLocation p key) ≠ some .directory) :
      Saves s trouble t key bytes (s.saved grown p key bytes) (.ok ())

section
variable {s : LocalStore} {t grown : FileTree} {key : String} {bytes : Bytes} {p : Location}

theorem grows_makeRoot (s : LocalStore) (t : FileTree) (trouble : Option SaveTrouble) :
    t.Grows (s.makeRoot t trouble).1 s.root.ancestors := by
  unfold makeRoot
  split
  · exact (t.grows_makeAll _).mono (List.drop_subset _ _)
  · exact t.grows_makeAll _

theorem makeRoot_eq_ok {trouble : Option SaveTrouble}
    (h : s.makeRoot t trouble = (grown, .ok ())) :
    t.makeDirectories s.root = (grown, .ok ()) := by
  unfold makeRoot at h
  split at h
  · cases h
  · exact h

theorem writeTemporary_cases (leads : grown.Leads s.root p) (key : String) (bytes : Bytes)
    (trouble : Option SaveTrouble) :
    (∃ cause, writeTemporary grown (s.temporaryPlace key) bytes trouble = (grown, .error cause)) ∨
    s.root.Admits (temporaryName key s.process s.sequence) ∧
      grown.lookup (s.temporaryLocation p key) ≠ some .directory ∧
      ((∃ written cause, trouble = some (.writing written cause) ∧
        writeTemporary grown (s.temporaryPlace key) bytes trouble =
          (grown.put (s.temporaryLocation p key) (.file (bytes.take written)), .error cause)) ∨
      writeTemporary grown (s.temporaryPlace key) bytes trouble =
        (grown.put (s.temporaryLocation p key) (.file bytes), .ok ())) := by
  unfold writeTemporary
  split
  · exact .inl ⟨_, rfl⟩
  · rename_i written cause
    split
    · rename_i left first
      obtain ⟨room, clear, rfl⟩ := leads.write_child_eq_ok_iff.1 first
      exact .inr ⟨room, clear, .inl ⟨written, cause, rfl, rfl⟩⟩
    · exact .inl ⟨_, rfl⟩
  · split
    · rename_i left first
      obtain ⟨room, clear, rfl⟩ := leads.write_child_eq_ok_iff.1 first
      exact .inr ⟨room, clear, .inr rfl⟩
    · exact .inl ⟨_, rfl⟩

section
variable (leads : grown.Leads s.root p)
  (room : s.root.Admits (temporaryName key s.process s.sequence))
  (clear : grown.lookup (s.temporaryLocation p key) ≠ some .directory)
include leads room clear

theorem remove_temporary (bytes : Bytes) :
    (grown.put (s.temporaryLocation p key) (.file bytes)).remove (s.temporaryPlace key) =
      .ok (s.withdrawn grown p key bytes) := by
  have there := lookup_written (s := s) grown p key bytes
  rw [temporaryPlace, (leads.put clear).remove_child room]
  rw [temporaryLocation] at there ⊢
  rw [there]
  rfl

theorem rename_temporary (bytes : Bytes) :
    (grown.put (s.temporaryLocation p key) (.file bytes)).rename (s.temporaryPlace key)
      (s.place key) = (s.withdrawn grown p key bytes).write (s.place key) bytes := by
  have read : (grown.put (s.temporaryLocation p key) (.file bytes)).read (s.temporaryPlace key) =
      .ok bytes :=
    (leads.put clear).read_child_eq_ok_iff.2 ⟨room, lookup_written grown p key bytes⟩
  simp only [FileTree.rename, read, remove_temporary leads room clear, bind, Except.bind]

theorem moveIntoPlace_cases (bytes : Bytes) (trouble : Option SaveTrouble) :
    (∃ cause, moveIntoPlace (grown.put (s.temporaryLocation p key) (.file bytes))
      (s.temporaryPlace key) (s.place key) trouble =
        (s.withdrawn grown p key bytes, .error cause)) ∨
    moveIntoPlace (grown.put (s.temporaryLocation p key) (.file bytes)) (s.temporaryPlace key)
      (s.place key) trouble = (s.saved grown p key bytes, .ok ()) := by
  unfold moveIntoPlace
  rw [remove_temporary leads room clear, rename_temporary leads room clear]
  split
  · exact .inl ⟨_, rfl⟩
  · cases moved : (s.withdrawn grown p key bytes).write (s.place key) bytes with
    | error cause => exact .inl ⟨cause, rfl⟩
    | ok left =>
      obtain ⟨-, -, rfl⟩ := (leads_withdrawn leads clear).write_child_eq_ok_iff.1 moved
      exact .inr rfl

end

theorem saves (s : LocalStore) (t : FileTree) {id : AssetId} (valid : checkKey id = .ok key)
    (bytes : Bytes) (trouble : Option SaveTrouble) :
    s.Saves trouble t key bytes (saveUnder trouble s t id bytes).2.1
      (saveUnder trouble s t id bytes).2.2 := by
  have grows := s.grows_makeRoot t trouble
  simp only [saveUnder, valid]
  cases reached : s.makeRoot t trouble with | mk grown result =>
  rw [reached] at grows
  cases result with
  | error cause => exact .unmade grown grows cause
  | ok =>
    have made := makeRoot_eq_ok reached
    obtain ⟨p, leads⟩ := FileTree.leads_of_makeDirectories made
    obtain ⟨cause, failed⟩ | ⟨room, clear, ⟨written, cause, struck, failed⟩ | passed⟩ :=
      writeTemporary_cases leads key bytes trouble
    · simp only [failed]
      exact .unwritten grown grows cause
    · simp only [failed]
      exact .cutOff grown made p leads clear written cause struck
    · simp only [passed]
      obtain ⟨cause, failed⟩ | passed := moveIntoPlace_cases leads room clear bytes trouble
      · simp only [failed]
        exact .unmoved grown made p leads clear cause
      · simp only [passed]
        exact .saved grown made p leads clear

/-- A save that nothing keeps from its work. -/
theorem save_eq {id : AssetId} (bytes : Bytes) (valid : checkKey id = .ok key)
    (made : t.makeDirectories s.root = (grown, .ok ())) (leads : grown.Leads s.root p)
    (room : s.root.Admits (temporaryName key s.process s.sequence)) (admits : s.root.Admits key)
    (free : grown.lookup (s.temporaryLocation p key) ≠ some .directory)
    (clear : grown.lookup (p ++ [key]) ≠ some .directory) :
    s.save t id bytes =
      ({ s with sequence := s.sequence + 1 }, s.saved grown p key bytes, .ok ()) := by
  have wrote : writeTemporary grown (s.temporaryPlace key) bytes none =
      (grown.put (s.temporaryLocation p key) (.file bytes), .ok ()) := by
    have write := leads.write_child room free bytes
    simp only [writeTemporary, temporaryPlace, write, temporaryLocation]
  have moved : moveIntoPlace (grown.put (s.temporaryLocation p key) (.file bytes))
      (s.temporaryPlace key) (s.place key) none = (s.saved grown p key bytes, .ok ()) := by
    have unblocked : (s.withdrawn grown p key bytes).lookup (p ++ [key]) ≠ some .directory := by
      rwa [lookup_withdrawn_key]
    have write : (s.withdrawn grown p key bytes).write (s.place key) bytes =
        .ok (s.saved grown p key bytes) :=
      (leads_withdrawn leads free).write_child admits unblocked bytes
    simp only [moveIntoPlace, rename_temporary leads room free, write]
  simp only [save, saveUnder, valid, makeRoot, made, wrote, moved]

end

section
variable {s : LocalStore} {trouble : Option SaveTrouble} {t after : FileTree} {key : String}
  {bytes : Bytes} {err : StorageError}

/-- Apart from directories on the way to the root, a failed save changes nothing but its temporary
file, which is there afterwards only if the write was cut off. -/
theorem Saves.frame (h : s.Saves trouble t key bytes after (.error err)) :
    ∃ grown, t.Grows grown s.root.ancestors ∧ (∀ p, grown.Leads s.root p → after.Leads s.root p) ∧
      ∀ q, after.lookup q = grown.lookup q ∨
        ∃ p, t.makeDirectories s.root = (grown, .ok ()) ∧ grown.Leads s.root p ∧
          q = s.temporaryLocation p key ∧ (after.lookup q = none ∨ ∃ written cause,
            trouble = some (.writing written cause) ∧
              after.lookup q = some (.file (bytes.take written))) := by
  cases h with
  | unmade _ grows => exact ⟨after, grows, fun _ leads => leads, fun q => .inl rfl⟩
  | unwritten _ grows => exact ⟨after, grows, fun _ leads => leads, fun q => .inl rfl⟩
  | cutOff grown made p leads clear written cause struck =>
    refine ⟨grown, FileTree.grows_makeDirectories made, ?_, ?_⟩
    · intro p' leads'
      exact leads'.put clear
    · intro q
      by_cases temporary : q = s.temporaryLocation p key
      · subst temporary
        exact .inr ⟨p, made, leads, rfl, .inr ⟨written, cause, struck, lookup_written grown p key _⟩⟩
      · exact .inl (FileTree.lookup_put_of_ne temporary)
  | unmoved grown made p leads clear cause =>
    refine ⟨grown, FileTree.grows_makeDirectories made, ?_, ?_⟩
    · intro p' leads'
      exact leads_withdrawn leads' clear
    · intro q
      rw [lookup_withdrawn]
      by_cases temporary : q = s.temporaryLocation p key
      · exact .inr ⟨p, made, leads, temporary, .inl (if_pos temporary)⟩
      · exact .inl (if_neg temporary)

theorem load_eq_ok_iff {id : AssetId} :
    s.load t id = .ok bytes ↔ ∃ key, checkKey id = .ok key ∧ t.read (s.place key) = .ok bytes := by
  simp only [load, bind_eq_ok_iff, mapError_eq_ok_iff]

theorem load_of_failed (h : s.Saves trouble t key bytes after (.error err)) {other : AssetId}
    (apart : other ≠ temporaryName key s.process s.sequence) {old : Bytes}
    (stored : s.load t other = .ok old) : s.load after other = .ok old := by
  obtain ⟨name, valid, read⟩ := load_eq_ok_iff.1 stored
  obtain ⟨-, rfl⟩ := Store.checkKey_eq_ok_iff.1 valid
  obtain ⟨grown, grows, leading, same⟩ := h.frame
  obtain ⟨p, leads⟩ := FileTree.leads_of_read_child read
  obtain ⟨room, there⟩ := leads.read_child_eq_ok_iff.1 read
  have further := leads.of_directories fun q => grows.lookup_of_some
  have still : after.lookup (p ++ [name]) = some (.file old) := by
    rcases same (p ++ [name]) with kept | ⟨p', -, leads', temporary, -⟩
    · rw [kept, grows.lookup_of_some there]
    · obtain rfl := further.location_eq leads'
      have clash := List.append_cancel_left temporary
      rw [List.cons.injEq] at clash
      exact absurd clash.1 apart
  exact load_eq_ok_iff.2 ⟨name, valid, (leading p further).read_child_eq_ok_iff.2 ⟨room, still⟩⟩

/-- Nothing stands yet where the next save writes its temporary file. -/
def IsVacant (s : LocalStore) (t : FileTree) (key : String) : Prop :=
  ∀ grown p, t.makeDirectories s.root = (grown, .ok ()) → grown.Leads s.root p →
    grown.lookup (s.temporaryLocation p key) = none

theorem Saves.restored (h : s.Saves trouble t key bytes after (.error err))
    (vacant : s.IsVacant t key) (whole : ∀ written cause, trouble ≠ some (.writing written cause)) :
    t.Grows after s.root.ancestors := by
  obtain ⟨grown, grows, -, same⟩ := h.frame
  refine grows.of_lookup_eq fun q => ?_
  rcases same q with kept | ⟨p, made, leads, rfl, missing | ⟨written, cause, struck, -⟩⟩
  · exact kept
  · rw [missing, vacant grown p made leads]
  · exact absurd struck (whole written cause)

end

/-- A failed save keeps what was stored. It leaves nothing of its own if the place of the temporary file
was free and the write of that file was not cut off; otherwise at most what it has written. -/
theorem failed_saves_keep_the_store (s : LocalStore) (t : FileTree) (id : AssetId) (key : String)
    (bytes : Bytes) (trouble : Option SaveTrouble) (err : StorageError)
    (valid : checkKey id = .ok key) (failed : (saveUnder trouble s t id bytes).2.2 = .error err) :
    let after := (saveUnder trouble s t id bytes).2.1
    (∀ old, s.load t id = .ok old → s.load after id = .ok old) ∧
    (∀ other old, other ≠ temporaryName key s.process s.sequence →
      s.load t other = .ok old → s.load after other = .ok old) ∧
    (∃ grown, t.Grows grown s.root.ancestors ∧ ∀ q, after.lookup q = grown.lookup q ∨
      ∃ p, grown.Leads s.root p ∧ q = s.temporaryLocation p key ∧ (after.lookup q = none ∨
        ∃ written cause, trouble = some (.writing written cause) ∧
          after.lookup q = some (.file (bytes.take written)))) ∧
    (s.IsVacant t key → (∀ written cause, trouble ≠ some (.writing written cause)) →
      t.Grows after s.root.ancestors) := by
  have saves := s.saves t valid bytes trouble
  rw [failed] at saves
  refine ⟨?_, ?_, ?_, ?_⟩
  · intro old stored
    have apart : id ≠ temporaryName key s.process s.sequence := by
      rw [← (Store.checkKey_eq_ok_iff.1 valid).2]
      exact (temporaryName_ne key s.process s.sequence).symm
    exact load_of_failed saves apart stored
  · intro other old apart stored
    exact load_of_failed saves apart stored
  · obtain ⟨grown, grows, -, same⟩ := saves.frame
    refine ⟨grown, grows, fun q => ?_⟩
    rcases same q with kept | ⟨p, -, leads, temporary, residue⟩
    · exact .inl kept
    · exact .inr ⟨p, leads, temporary, residue⟩
  · exact saves.restored

end LocalStore

def LocalStore.shelf : LocalStore where
  root := .ofPath [] "/shelf"
  process := 7

/-- A store whose root is `s`, by a path that passes through a directory below. -/
def LocalStore.winding : LocalStore where
  root := .ofPath [] "s/q/.."
  process := 7

/-- A value, a directory, and a file that has the name of the first temporary file for the latter. -/
def FileTree.shelf : FileTree :=
  ⟨[(["shelf"], .directory), (["shelf", "q"], .file [1]), (["shelf", "dir"], .directory),
    (["shelf", ".dir.7.0.tmp"], .file [4])]⟩

theorem shelf_keeps_its_value :
    LocalStore.shelf.load (LocalStore.saveUnder (some (.renaming .notFound)) .shelf .shelf "q"
      [2, 3]).2.1 "q" = .ok [1] ∧
    FileTree.shelf.Grows (LocalStore.saveUnder (some (.renaming .notFound)) .shelf .shelf "q"
      [2, 3]).2.1 LocalStore.shelf.root.ancestors := by
  have failed : (LocalStore.saveUnder (some (.renaming .notFound)) .shelf .shelf "q"
      [2, 3]).2.2 = .error (.writeFailed "q" .notFound) := by
    decide +kernel
  have keeps := LocalStore.failed_saves_keep_the_store .shelf .shelf "q" "q" [2, 3] _ _
    (by decide +kernel) failed
  have vacant : LocalStore.shelf.IsVacant .shelf "q" := by
    intro grown p made leads
    have same : FileTree.shelf.makeDirectories LocalStore.shelf.root = (.shelf, .ok ()) := by
      decide +kernel
    cases same.symm.trans made
    have there : FileTree.shelf.Leads LocalStore.shelf.root ["shelf"] := by
      rfl
    obtain rfl := there.location_eq leads
    decide +kernel
  refine ⟨keeps.1 [1] (by decide +kernel), keeps.2.2.2 vacant ?_⟩
  intro written cause struck
  cases struck

/-- A write that is cut off leaves its temporary file. A value that cannot be moved to its place takes
away a file with the name of its own, and the way to a root may itself stand in the place of a value. -/
theorem shelf_is_left_in_disorder :
    let cut := LocalStore.saveUnder (some (.writing 1 (.other "No space left on device")))
      .shelf .shelf "q" [2, 3]
    let blocked := LocalStore.save .shelf .shelf "dir" [2, 3]
    let wound := LocalStore.save .winding {} "q" [2, 3]
    (cut.2.2 = .error (.writeFailed "q" (.other "No space left on device")) ∧
      LocalStore.shelf.load .shelf ".q.7.0.tmp" = .error (.notFound ".q.7.0.tmp") ∧
      LocalStore.shelf.load cut.2.1 ".q.7.0.tmp" = .ok [2]) ∧
    (blocked.2.2 = .error (.writeFailed "dir" .isDirectory) ∧
      LocalStore.shelf.load .shelf ".dir.7.0.tmp" = .ok [4] ∧
      LocalStore.shelf.load blocked.2.1 ".dir.7.0.tmp" = .error (.notFound ".dir.7.0.tmp")) ∧
    wound.2.2 = .error (.writeFailed "q" .isDirectory) ∧
      LocalStore.winding.contains {} "q" = .ok false ∧
      LocalStore.winding.contains wound.2.1 "q" = .ok true := by
  decide +kernel

end Montage
