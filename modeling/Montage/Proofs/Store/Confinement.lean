import Montage.Proofs.FileTree.Changes
import Montage.Proofs.Path.Child
import Montage.Proofs.Store.Mirror

/-! Assets stay in the directory of their store. Their ids are single names, so that every place that is
used for one of them is a direct child of the root, and an id that is not one is refused before anything
is done. -/
namespace Montage

open Store (checkKey isKey isKeyChar)

namespace Store

structure IsAssetName (id : AssetId) : Prop where
  nonempty : 1 ≤ id.length
  short : id.length ≤ 128
  characters : ∀ c ∈ id.toList, 'a' ≤ c ∧ c ≤ 'z' ∨ 'A' ≤ c ∧ c ≤ 'Z' ∨ '0' ≤ c ∧ c ≤ '9' ∨
    c ∈ ['-', '_', '.']
  here : id ≠ "."
  above : id ≠ ".."

theorem isKeyChar_iff {c : Char} : isKeyChar c = true ↔ 'a' ≤ c ∧ c ≤ 'z' ∨ 'A' ≤ c ∧ c ≤ 'Z' ∨
    '0' ≤ c ∧ c ≤ '9' ∨ c ∈ ['-', '_', '.'] := by
  have letters : c.isAlphanum = true ↔
      'a' ≤ c ∧ c ≤ 'z' ∨ 'A' ≤ c ∧ c ≤ 'Z' ∨ '0' ≤ c ∧ c ≤ '9' := by
    rw [Text.isAlphanum_iff]
    simp only [Char.le_def, UInt32.le_iff_toNat_le]
    change _ ↔ 97 ≤ c.toNat ∧ c.toNat ≤ 122 ∨ 65 ≤ c.toNat ∧ c.toNat ≤ 90 ∨
      48 ≤ c.toNat ∧ c.toNat ≤ 57
    omega
  simp only [isKeyChar, Bool.or_eq_true, decide_eq_true_eq, letters, List.mem_cons,
    List.not_mem_nil, or_false, or_assoc]

theorem isKey_iff {id : AssetId} : isKey id.toList = true ↔ IsAssetName id := by
  have here : id.toList = ['.'] ↔ id = "." := by
    rw [← String.toList_inj]
    rfl
  have above : id.toList = ['.', '.'] ↔ id = ".." := by
    rw [← String.toList_inj]
    rfl
  simp only [isKey, Bool.and_eq_true, decide_eq_true_eq, List.all_eq_true, isKeyChar_iff, ne_eq, here,
    above, ← List.length_pos_iff, String.length_toList]
  constructor
  · rintro ⟨⟨⟨⟨nonempty, short⟩, here⟩, above⟩, characters⟩
    exact ⟨nonempty, short, characters, here, above⟩
  · intro h
    exact ⟨⟨⟨⟨h.nonempty, h.short⟩, h.here⟩, h.above⟩, h.characters⟩

instance (id : AssetId) : Decidable (IsAssetName id) := decidable_of_iff _ isKey_iff

theorem checkKey_of_isAssetName {id : AssetId} (h : IsAssetName id) : checkKey id = .ok id :=
  checkKey_eq_ok_iff.2 ⟨isKey_iff.2 h, rfl⟩

theorem checkKey_of_not_isAssetName {id : AssetId} (h : ¬ IsAssetName id) :
    checkKey id = .error (.invalidKey id) := by
  rw [checkKey, if_neg (mt isKey_iff.1 h)]

variable {id : AssetId}

theorem IsAssetName.isName (h : IsAssetName id) : Path.IsName id.toList where
  nonempty := by
    have length := h.nonempty
    rw [← String.length_toList] at length
    exact List.length_pos_iff.1 length
  slash := fun found => absurd (h.characters '/' found) (by decide)
  here := fun same => h.here (String.toList_inj.1 same)
  above := fun same => h.above (String.toList_inj.1 same)

theorem IsAssetName.utf8ByteSize_eq (h : IsAssetName id) : id.utf8ByteSize = id.length := by
  have size := utf8ByteSize_of_isKeyChar fun c among => isKeyChar_iff.2 (h.characters c among)
  rwa [String.ofList_toList, String.length_toList] at size

end Store

open Store (IsAssetName checkKey_of_isAssetName checkKey_of_not_isAssetName)

/-- Whether a call may change what has a name in the root. A save also uses a name of its own. -/
def StoreCall.Touches (process : UInt32) : StoreCall → String → Prop
  | save id _, name => IsAssetName id ∧
      (name = id ∨ ∃ sequence, name = LocalStore.temporaryName id process sequence)
  | delete id, name => IsAssetName id ∧ name = id
  | load _, _ | contains _, _ => False

namespace LocalStore

theorem toList_temporaryName (key : String) (process : UInt32) (sequence : UInt64) :
    (temporaryName key process sequence).toList = '.' :: (key.toList ++ '.' ::
      (Numeral.digits process.toNat ++ '.' :: (Numeral.digits sequence.toNat ++ ".tmp".toList))) := by
  simp [temporaryName, Numeral.text]

theorem isName_temporaryName {key : String} (h : IsAssetName key) (process : UInt32)
    (sequence : UInt64) : Path.IsName (temporaryName key process sequence).toList := by
  have digits (n : Nat) : '/' ∉ Numeral.digits n := fun found =>
    absurd ((Numeral.isDigits_digits n).2 '/' found) (by decide)
  have long : 2 < (temporaryName key process sequence).toList.length := by
    simp only [toList_temporaryName, List.length_cons, List.length_append]
    omega
  refine ⟨List.ne_nil_of_length_pos (Nat.zero_lt_of_lt long), ?_, ?_, ?_⟩
  · rw [toList_temporaryName]
    simp [h.isName.slash, digits]
  · intro here
    simp [here] at long
  · intro above
    simp [above] at long

section
variable (s : LocalStore) (t : FileTree) {key : String} {names : String → Prop}

theorem changesIn_makeRoot (names : String → Prop) (trouble : Option SaveTrouble) :
    t.ChangesIn s.root names (s.makeRoot t trouble).1 :=
  .of_grows (s.grows_makeRoot t trouble)

theorem changesIn_writeTemporary (used : names (temporaryName key s.process s.sequence))
    (bytes : Bytes) (trouble : Option SaveTrouble) :
    t.ChangesIn s.root names (writeTemporary t (s.temporaryPlace key) bytes trouble).1 := by
  unfold writeTemporary
  split
  · exact .refl _ _ _
  · split
    · rename_i wrote
      exact .write wrote used
    · exact .refl _ _ _
  · split
    · rename_i wrote
      exact .write wrote used
    · exact .refl _ _ _

theorem changesIn_moveIntoPlace (temporary : names (temporaryName key s.process s.sequence))
    (place : names key) (trouble : Option SaveTrouble) : t.ChangesIn s.root names
      (moveIntoPlace t (s.temporaryPlace key) (s.place key) trouble).1 := by
  unfold moveIntoPlace
  dsimp only
  split
  · rename_i moved
    split at moved
    · cases moved
    · exact .rename moved temporary place
  · split
    · rename_i removed
      exact .remove removed temporary
    · exact .refl _ _ _

/-- However a save goes, it changes no more than its place and that of its temporary file. -/
theorem changesIn_saveUnder (id : AssetId) (bytes : Bytes) (trouble : Option SaveTrouble) :
    t.ChangesIn s.root ((StoreCall.save id bytes).Touches s.process)
      (saveUnder trouble s t id bytes).2.1 := by
  by_cases valid : IsAssetName id
  · have temporary : (StoreCall.save id bytes).Touches s.process
        (temporaryName id s.process s.sequence) := ⟨valid, .inr ⟨_, rfl⟩⟩
    have place : (StoreCall.save id bytes).Touches s.process id := ⟨valid, .inl rfl⟩
    simp only [saveUnder, checkKey_of_isAssetName valid]
    have made := s.changesIn_makeRoot t ((StoreCall.save id bytes).Touches s.process) trouble
    cases rooted : s.makeRoot t trouble with | mk grown result =>
    rw [rooted] at made
    cases result with
    | error cause => exact made
    | ok =>
      have wrote := s.changesIn_writeTemporary grown temporary bytes trouble
      cases written : writeTemporary grown (s.temporaryPlace id) bytes trouble with | mk left result =>
      rw [written] at wrote
      cases result with
      | error cause =>
        simp only [written]
        exact made.trans wrote
      | ok =>
        simp only [written]
        have moved := s.changesIn_moveIntoPlace left temporary place trouble
        cases placed : moveIntoPlace left (s.temporaryPlace id) (s.place id) trouble with
        | mk done result =>
        rw [placed] at moved
        cases result <;> exact (made.trans wrote).trans moved
  · simp only [saveUnder, checkKey_of_not_isAssetName valid]
    exact .refl _ _ _

theorem changesIn_delete (id : AssetId) :
    t.ChangesIn s.root ((StoreCall.delete id).Touches s.process) (s.delete t id).1 := by
  by_cases valid : IsAssetName id
  · simp only [delete, checkKey_of_isAssetName valid]
    split
    · rename_i removed
      exact .remove removed ⟨valid, rfl⟩
    · exact .refl _ _ _
  · simp only [delete, checkKey_of_not_isAssetName valid]
    exact .refl _ _ _

theorem store_saveUnder (id : AssetId) (bytes : Bytes) (trouble : Option SaveTrouble) :
    (saveUnder trouble s t id bytes).1.root = s.root ∧
      (saveUnder trouble s t id bytes).1.process = s.process := by
  unfold saveUnder
  split
  · exact ⟨rfl, rfl⟩
  · split
    · exact ⟨rfl, rfl⟩
    · dsimp only
      split
      · exact ⟨rfl, rfl⟩
      · split <;> exact ⟨rfl, rfl⟩

theorem store_answer (call : StoreCall) :
    (answer (s, t) call).1.1.root = s.root ∧ (answer (s, t) call).1.1.process = s.process := by
  cases call with
  | save id bytes => exact s.store_saveUnder t id bytes none
  | _ => exact ⟨rfl, rfl⟩

theorem changesIn_answer (call : StoreCall) : t.ChangesIn s.root (call.Touches s.process)
    (answer (s, t) call).1.2 := by
  cases call with
  | save id bytes => exact s.changesIn_saveUnder t id bytes none
  | delete id => exact s.changesIn_delete t id
  | load id => exact .refl _ _ _
  | contains id => exact .refl _ _ _

/-- Whatever calls come, at any moment nothing has changed but under the names that they touch. -/
theorem changesIn_run (calls : List StoreCall) : ∀ moment ∈ StoreCall.run answer (s, t) calls,
    t.ChangesIn s.root (fun name => ∃ call ∈ calls, call.Touches s.process name) moment.1.2 := by
  induction calls generalizing s t with
  | nil => exact fun _ found => absurd found List.not_mem_nil
  | cons call rest ih =>
    have first : t.ChangesIn s.root (fun name => ∃ c ∈ call :: rest, c.Touches s.process name)
        (answer (s, t) call).1.2 :=
      (s.changesIn_answer t call).mono fun name used => ⟨call, List.mem_cons_self, used⟩
    obtain ⟨root, process⟩ := s.store_answer t call
    intro moment among
    rw [StoreCall.run, List.mem_cons] at among
    rcases among with rfl | later
    · exact first
    · have next := ih (answer (s, t) call).1.1 (answer (s, t) call).1.2 moment later
      rw [root, process] at next
      refine first.trans (next.mono ?_)
      rintro name ⟨other, among, used⟩
      exact ⟨other, List.mem_cons_of_mem _ among, used⟩

end

end LocalStore

section
variable {call : StoreCall} (refused : checkKey call.id = .error (.invalidKey call.id))
include refused

/-- A call with an id that is refused is answered before anything is done. -/
theorem LocalStore.answer_of_refused (s : LocalStore) (t : FileTree) :
    answer (s, t) call = ((s, t), .failed (.invalidKey call.id)) := by
  cases call <;> simp only [StoreCall.id] at refused <;>
    simp only [answer, save, saveUnder, load, delete, contains, refused] <;> rfl

theorem MemoryStore.answer_of_refused (m : MemoryStore) :
    answer m call = (m, .failed (.invalidKey call.id)) := by
  cases call <;> simp only [StoreCall.id] at refused <;>
    simp only [answer, save, load, delete, contains, refused] <;> rfl

end

/-- Ids of assets are confined to the root of their store. An accepted id is the name of a direct child
of the root, and so is the temporary file of each save of it. A refused id has no place, and no call with
it does anything. So nothing is ever changed outside of the root but for the way to it. -/
theorem assets_stay_in_their_root (here : Location) (path : String) (process : UInt32)
    (sequence : UInt64) (t : FileTree) (m : MemoryStore) (id : AssetId) :
    let s : LocalStore := ⟨.ofPath here path, process, sequence⟩
    let pathOf := (Directory.ofPath here path).pathOf
    let temporaryName := LocalStore.temporaryName id process sequence
    (checkKey id = .ok id ↔ IsAssetName id) ∧
    (IsAssetName id →
      id.utf8ByteSize = id.length ∧
      s.locate id = .ok (s.place id) ∧ (s.place id).IsChildOf here path id ∧
      (s.temporaryPlace id).IsChildOf here path temporaryName ∧
      s.temporaryPlace id ≠ s.place id ∧ pathOf temporaryName ≠ pathOf id ∧
      ∀ other, IsAssetName other → other ≠ id →
        s.locate other ≠ s.locate id ∧ pathOf other ≠ pathOf id) ∧
    (¬ IsAssetName id →
      checkKey id = .error (.invalidKey id) ∧ s.locate id = .error (.invalidKey id) ∧
      ∀ call : StoreCall, call.id = id →
        LocalStore.answer (s, t) call = ((s, t), .failed (.invalidKey id)) ∧
        MemoryStore.answer m call = (m, .failed (.invalidKey id))) ∧
    ∀ calls, ∀ moment ∈ StoreCall.run LocalStore.answer (s, t) calls,
      t.ChangesIn s.root (fun name => ∃ call ∈ calls, call.Touches process name) moment.1.2 := by
  intro s pathOf temporaryName
  refine ⟨?_, ?_, ?_, s.changesIn_run t⟩
  · rw [Store.checkKey_eq_ok_iff, Store.isKey_iff]
    exact and_iff_left rfl
  · intro valid
    have named := valid.isName
    have temporary := LocalStore.isName_temporaryName valid process sequence
    have apart := LocalStore.temporaryName_ne id process sequence
    have located {key : AssetId} (accepted : IsAssetName key) : s.locate key = .ok (s.place key) := by
      rw [LocalStore.locate, checkKey_of_isAssetName accepted]
      rfl
    refine ⟨valid.utf8ByteSize_eq, located valid, Route.isChildOf_child here path named,
      Route.isChildOf_child here path temporary, ?_, ?_, ?_⟩
    · exact fun same => apart (Route.child_inj.1 same)
    · exact fun same => apart ((Directory.pathOf_inj temporary named).1 same)
    · intro other accepted differs
      rw [located valid, located accepted]
      refine ⟨fun same => differs (Route.child_inj.1 (Except.ok.inj same)), fun same => ?_⟩
      exact differs ((Directory.pathOf_inj accepted.isName named).1 same)
  · intro invalid
    have refused := checkKey_of_not_isAssetName invalid
    refine ⟨refused, ?_, ?_⟩
    · rw [LocalStore.locate, refused]
      rfl
    · rintro call rfl
      exact ⟨LocalStore.answer_of_refused refused s t, MemoryStore.answer_of_refused refused m⟩

/-- Three points are a name and two are not, whatever slashes the path of the root ends in. -/
theorem pointed_names_stay_in_their_root :
    let s : LocalStore := ⟨.ofPath ["w"] "./a//", 7, 0⟩
    let pathOf := (Directory.ofPath ["w"] "./a//").pathOf
    let saved := LocalStore.answer (s, {}) (.save "..." [1])
    (IsAssetName "..." ∧ (s.place "...").IsChildOf ["w"] "./a//" "..." ∧
      IsAssetName "..a" ∧ pathOf "..a" ≠ pathOf "...") ∧
    (¬ IsAssetName ".." ∧
      LocalStore.answer (s, {}) (.save ".." [1]) = ((s, {}), .failed (.invalidKey ".."))) ∧
    saved.2 = .done ∧ saved.1.2.lookup ["w", "a", "..."] = some (.file [1]) ∧
    ({} : FileTree).ChangesIn s.root
      (fun name => ∃ call ∈ [StoreCall.save "..." [1]], call.Touches 7 name) saved.1.2 := by
  intro s pathOf saved
  have accepted : IsAssetName "..." ∧ IsAssetName "..a" ∧ ¬ IsAssetName ".." := by decide +kernel
  obtain ⟨three, other, two⟩ := accepted
  obtain ⟨-, placed, -, confined⟩ := assets_stay_in_their_root ["w"] "./a//" 7 0 {} {} "..."
  obtain ⟨-, -, child, -, -, -, differs⟩ := placed three
  obtain ⟨-, -, refused, -⟩ := assets_stay_in_their_root ["w"] "./a//" 7 0 {} {} ".."
  refine ⟨⟨three, child, other, (differs "..a" other (by decide)).2⟩,
    ⟨two, ((refused two).2.2 (.save ".." [1]) rfl).1⟩, by decide +kernel, by decide +kernel, ?_⟩
  exact confined [.save "..." [1]] saved List.mem_cons_self

end Montage
