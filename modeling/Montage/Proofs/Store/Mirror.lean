import Montage.Proofs.PlainDecimal
import Montage.Proofs.Store.Saving
import Montage.Store.Call

/-! A store in a directory against the store in memory. As long as no save takes the name of an asset
for its temporary file, the directory holds just what the memory does, and all answers are the same. -/
namespace Montage

open Store (checkKey isKey isKeyChar maxKeyLength)

theorem Numeral.length_digits_le {k n : Nat} (h : n < Nat.pow 10 (k + 1)) :
    (digits n).length ≤ k + 1 := by
  induction k generalizing n with
  | zero =>
    have small : n < 10 := h
    rw [digits, if_pos small]
    exact Nat.le_refl _
  | succ k ih =>
    rw [digits]
    split
    · simp
    · have shorter : n / 10 < Nat.pow 10 (k + 1) :=
        (Nat.div_lt_iff_lt_mul (by decide)).2 h
      have before := ih shorter
      rw [List.length_append, List.length_singleton]
      omega

namespace Store

theorem toNat_lt_of_isKeyChar {c : Char} (h : isKeyChar c = true) : c.toNat < 128 := by
  simp only [isKeyChar, Bool.or_eq_true, decide_eq_true_eq] at h
  rcases h with ((word | rfl) | rfl) | rfl
  · rw [Text.isAlphanum_iff] at word
    omega
  · decide
  · decide
  · decide

theorem utf8ByteSize_of_isKeyChar {cs : List Char} (h : ∀ c ∈ cs, isKeyChar c = true) :
    (String.ofList cs).utf8ByteSize = cs.length :=
  Text.utf8ByteSize_of_ascii fun c among => toNat_lt_of_isKeyChar (h c among)

theorem utf8ByteSize_of_isKey {key : String} (h : isKey key.toList = true) :
    key.utf8ByteSize ≤ maxKeyLength := by
  simp only [isKey, Bool.and_eq_true, decide_eq_true_eq, List.all_eq_true] at h
  obtain ⟨⟨⟨⟨-, short⟩, -⟩, -⟩, chars⟩ := h
  have size := utf8ByteSize_of_isKeyChar chars
  rw [String.ofList_toList] at size
  omega

theorem utf8ByteSize_text_le {k n : Nat} (h : n < Nat.pow 10 (k + 1)) :
    (Numeral.text n).utf8ByteSize ≤ k + 1 := by
  have digits : ∀ c ∈ Numeral.digits n, isKeyChar c = true := by
    intro c among
    have digit := (Numeral.isDigits_digits n).2 c among
    simp only [isKeyChar, Char.isAlphanum, digit, Bool.or_true, Bool.true_or]
  rw [Numeral.text, utf8ByteSize_of_isKeyChar digits]
  exact Numeral.length_digits_le h

end Store

namespace LocalStore

/-- How many bytes a temporary name has at most: those of a key, of two numbers of 32 and 64 bits, and
of what stands around them. -/
def longestName : Nat := 1 + maxKeyLength + 1 + 10 + 1 + 20 + 4

def IsRoomy (s : LocalStore) : Prop := s.root.size + 1 + longestName < FileTree.pathLimit

theorem utf8ByteSize_temporaryName_le {key : String} (valid : isKey key.toList = true)
    (process : UInt32) (sequence : UInt64) :
    (temporaryName key process sequence).utf8ByteSize ≤ longestName := by
  have name := Store.utf8ByteSize_of_isKey valid
  have first : (Numeral.text process.toNat).utf8ByteSize ≤ 10 :=
    Store.utf8ByteSize_text_le (Nat.lt_trans process.toNat_lt (by decide))
  have second : (Numeral.text sequence.toNat).utf8ByteSize ≤ 20 :=
    Store.utf8ByteSize_text_le (Nat.lt_trans sequence.toNat_lt (by decide))
  have point : ".".utf8ByteSize = 1 := by decide
  have ending : ".tmp".utf8ByteSize = 4 := by decide
  simp only [temporaryName, String.utf8ByteSize_append, longestName, point, ending]
  omega

theorem IsRoomy.admits {s : LocalStore} (h : s.IsRoomy) {name : String}
    (short : name.utf8ByteSize ≤ longestName) : s.root.Admits name := by
  have size := s.root.size_child_le name
  have within : longestName ≤ FileTree.nameLimit := by decide
  unfold IsRoomy at h
  constructor
  · omega
  · omega

theorem IsRoomy.admits_key {s : LocalStore} (h : s.IsRoomy) {key : String}
    (valid : isKey key.toList = true) : s.root.Admits key := by
  have size := Store.utf8ByteSize_of_isKey valid
  have within : maxKeyLength ≤ longestName := by decide
  exact h.admits (by omega)

end LocalStore

structure FileTree.Stores (t : FileTree) (p : Location) (m : MemoryStore) : Prop where
  files : ∀ name, t.lookup (p ++ [name]) = (m.assets.lookup name).map .file
  nothing : ∀ q, 1 < q.length → t.lookup (p ++ q) = none

namespace LocalStore

/-- A root that is empty once it is made, be it there already or not. -/
def StartsEmpty (s : LocalStore) (p : Location) (t : FileTree) : Prop :=
  ∃ grown, t.makeDirectories s.root = (grown, .ok ()) ∧ grown.Leads s.root p ∧
    ∀ q, q ≠ [] → grown.lookup (p ++ q) = none

theorem StartsEmpty.of_straight {s : LocalStore} {p : Location} {t grown : FileTree}
    (made : t.makeDirectories s.root = (grown, .ok ())) (leads : grown.Leads s.root p)
    (straight : .up ∉ s.root.steps) (empty : ∀ q, q ≠ [] → t.lookup (p ++ q) = none) :
    s.StartsEmpty p t := by
  refine ⟨grown, made, leads, fun q nonempty => ?_⟩
  rw [(FileTree.grows_makeDirectories made).lookup_below leads straight nonempty]
  exact empty q nonempty

/-- A store and its tree stand for what is in memory. Before the first save the root may be missing. -/
structure Mirrors (s : LocalStore) (p : Location) (t : FileTree) (m : MemoryStore) : Prop where
  made : ∃ grown, t.makeDirectories s.root = (grown, .ok ()) ∧ grown.Leads s.root p ∧
    grown.Stores p m
  there : t.Leads s.root p ∨ m.assets = []

section
variable {s : LocalStore} {p : Location} {t : FileTree} {m : MemoryStore}

theorem StartsEmpty.mirrors (h : s.StartsEmpty p t) : s.Mirrors p t {} := by
  obtain ⟨grown, made, leads, empty⟩ := h
  have stores : grown.Stores p {} := by
    constructor
    · intro name
      exact empty [name] (List.cons_ne_nil _ _)
    · intro q long
      have nonempty : q ≠ [] := by
        rintro rfl
        cases long
      exact empty q nonempty
  exact ⟨⟨grown, made, leads, stores⟩, .inr rfl⟩

theorem IsRoomy.short (room : s.IsRoomy) : s.root.size < FileTree.pathLimit := by
  unfold IsRoomy at room
  omega

/-- Either the root is there and holds what is in memory, or there is nothing in either. -/
theorem Mirrors.leads_or_absent (h : s.Mirrors p t m) (room : s.IsRoomy) :
    t.Leads s.root p ∧ t.Stores p m ∨
      m.assets = [] ∧ ∀ name, s.root.Admits name → t.walk (s.place name) = .error .notFound := by
  obtain ⟨⟨grown, made, leads, stores⟩, begun⟩ := h
  have present {p' : Location} (there : t.Leads s.root p') :
      t.Leads s.root p ∧ t.Stores p m := by
    have same := FileTree.makeDirectories_of_leads there room.short
    rw [made] at same
    cases same
    exact ⟨leads, stores⟩
  rcases begun with there | empty
  · exact .inl (present there)
  · rcases FileTree.leads_or_absent (congrArg Prod.snd made) room.short with ⟨p', there⟩ | absent
    · exact .inl (present there)
    · refine .inr ⟨empty, fun name admits => ?_⟩
      have missing := absent [.down name] (List.cons_ne_nil _ _)
      have within : ¬FileTree.pathLimit ≤ (s.place name).size := Nat.not_le.2 admits.2
      rw [FileTree.walk, if_neg within]
      exact missing

theorem Mirrors.of_leads (leads : t.Leads s.root p) (stores : t.Stores p m) (room : s.IsRoomy) :
    s.Mirrors p t m :=
  ⟨⟨t, FileTree.makeDirectories_of_leads leads room.short, leads, stores⟩, .inl leads⟩

theorem Mirrors.stores (h : s.Mirrors p t m) (room : s.IsRoomy) : t.Stores p m := by
  rcases h.leads_or_absent room with ⟨-, stores⟩ | ⟨empty, -⟩
  · exact stores
  · obtain ⟨grown, made, -, stores⟩ := h.made
    have grows := FileTree.grows_makeDirectories made
    constructor
    · intro name
      have missing : grown.lookup (p ++ [name]) = none := by
        rw [stores.files, empty]
        rfl
      rw [grows.lookup_of_none missing, empty]
      rfl
    · intro q long
      exact grows.lookup_of_none (stores.nothing q long)

theorem Mirrors.read (h : s.Mirrors p t m) (room : s.IsRoomy) {name : String}
    (admits : s.root.Admits name) : t.read (s.place name) =
      match m.assets.lookup name with
      | some bytes => .ok bytes
      | none => .error .notFound := by
  rcases h.leads_or_absent room with ⟨leads, stores⟩ | ⟨empty, absent⟩
  · rw [place, leads.read_child admits, stores.files]
    cases m.assets.lookup name <;> rfl
  · rw [FileTree.read, absent name admits, empty]
    rfl

theorem Mirrors.present (h : s.Mirrors p t m) (room : s.IsRoomy) {name : String}
    (admits : s.root.Admits name) :
    t.present (s.place name) = .ok (m.assets.lookup name).isSome := by
  rcases h.leads_or_absent room with ⟨leads, stores⟩ | ⟨empty, absent⟩
  · rw [place, leads.present_child admits, stores.files, Option.isSome_map]
  · rw [FileTree.present, absent name admits, empty]
    rfl

theorem Mirrors.remove (h : s.Mirrors p t m) (room : s.IsRoomy) {name : String}
    (admits : s.root.Admits name) : t.remove (s.place name) =
      match m.assets.lookup name with
      | some _ => .ok (t.erase (p ++ [name]))
      | none => .error .notFound := by
  rcases h.leads_or_absent room with ⟨leads, stores⟩ | ⟨empty, absent⟩
  · rw [place, leads.remove_child admits, stores.files]
    cases m.assets.lookup name <;> rfl
  · rw [FileTree.remove, absent name admits, empty]
    rfl

end

end LocalStore

namespace MemoryStore

variable {m : MemoryStore} {key : String}

theorem lookup_erase (name : String) :
    (m.erase key).assets.lookup name = if name = key then none else m.assets.lookup name := by
  rw [erase, lookup_filter fun r => decide (r ≠ key)]
  by_cases same : name = key <;> simp [same]

theorem lookup_save (bytes : Bytes) (name : String) :
    List.lookup name ((key, bytes) :: (m.erase key).assets) =
      if name = key then some bytes else m.assets.lookup name := by
  by_cases same : name = key
  · simp [same]
  · rw [List.lookup_cons, beq_eq_false_iff_ne.2 same, if_neg same]
    exact (lookup_erase name).trans (if_neg same)

end MemoryStore

namespace LocalStore

/-- Whether a call is a save whose temporary file has the name of an asset. -/
def clashes (s : LocalStore) (m : MemoryStore) : StoreCall → Bool
  | .save id _ =>
    isKey id.toList && (m.assets.lookup (temporaryName id s.process s.sequence)).isSome
  | _ => false

/-- A store after a call: every save of a valid id uses up a temporary name. -/
def counted (s : LocalStore) : StoreCall → LocalStore
  | .save id _ => if isKey id.toList then { s with sequence := s.sequence + 1 } else s
  | _ => s

section
variable {s : LocalStore} {p : Location} {t : FileTree} {m : MemoryStore}

theorem Mirrors.erase (h : s.Mirrors p t m) (room : s.IsRoomy) {key : String} {bytes : Bytes}
    (there : m.assets.lookup key = some bytes) :
    s.Mirrors p (t.erase (p ++ [key])) (m.erase key) := by
  rcases h.leads_or_absent room with ⟨leads, stores⟩ | ⟨empty, -⟩
  · have file : t.lookup (p ++ [key]) = some (.file bytes) := by
      rw [stores.files, there]
      rfl
    refine .of_leads (leads.erase (by simp [file])) ⟨?_, ?_⟩ room
    · intro name
      rw [FileTree.lookup_erase (by simp), MemoryStore.lookup_erase, stores.files]
      by_cases same : name = key
      · rw [if_pos same, if_pos (by rw [same])]
        rfl
      · rw [if_neg same, if_neg (by simpa using same)]
    · intro q long
      have nonempty : q ≠ [] := by
        rintro rfl
        cases long
      rw [FileTree.lookup_erase (by simp [nonempty]), stores.nothing q long, ite_self]
  · rw [empty] at there
    cases there

/-- A save writes its value, and takes away what has the name of its temporary file. -/
theorem Mirrors.save (h : s.Mirrors p t m) (room : s.IsRoomy) {id : AssetId}
    (valid : isKey id.toList = true) (bytes : Bytes) :
    ∃ after, s.save t id bytes = ({ s with sequence := s.sequence + 1 }, after, .ok ()) ∧
      after.Leads s.root p ∧ (∀ q, 1 < q.length → after.lookup (p ++ q) = none) ∧
      ∀ name, after.lookup (p ++ [name]) =
        if name = id then some (.file bytes)
        else if name = temporaryName id s.process s.sequence then none
        else (m.assets.lookup name).map .file := by
  obtain ⟨grown, made, leads, stores⟩ := h.made
  have files (name : String) : grown.lookup (p ++ [name]) ≠ some .directory := by
    rw [stores.files]
    cases m.assets.lookup name <;> simp
  have free := files (temporaryName id s.process s.sequence)
  have saves := save_eq bytes (Store.checkKey_eq_ok_iff.2 ⟨valid, rfl⟩) made leads
    (room.admits (utf8ByteSize_temporaryName_le valid s.process s.sequence)) (room.admits_key valid)
    free (files id)
  refine ⟨_, saves, ?_, ?_, ?_⟩
  · exact leads_saved leads free (files id)
  · intro q long
    have apart (name : String) : p ++ q ≠ p ++ [name] := by
      intro same
      rw [List.append_cancel_left same] at long
      exact absurd long (Nat.lt_irrefl 1)
    have nonempty : p ++ q ≠ [] := by
      intro empty
      rw [(List.append_eq_nil_iff.1 empty).2] at long
      cases long
    rw [lookup_saved nonempty, if_neg (apart id), temporaryLocation, if_neg (apart _),
      stores.nothing q long]
  · intro name
    rw [lookup_saved (by simp), temporaryLocation, stores.files]
    simp only [List.append_cancel_left_eq, List.cons.injEq, and_true]

theorem Mirrors.load_eq (h : s.Mirrors p t m) (room : s.IsRoomy) (id : AssetId) :
    s.load t id = m.load id := by
  cases valid : isKey id.toList with
  | false => simp [load, MemoryStore.load, checkKey, valid, bind, Except.bind]
  | true =>
    have read := h.read room (room.admits_key valid)
    simp only [load, MemoryStore.load, checkKey, valid, if_true, bind, Except.bind, read]
    cases m.assets.lookup id <;> rfl

theorem Mirrors.contains_eq (h : s.Mirrors p t m) (room : s.IsRoomy) (id : AssetId) :
    s.contains t id = m.contains id := by
  cases valid : isKey id.toList with
  | false => simp [contains, MemoryStore.contains, checkKey, valid, bind, Except.bind]
  | true =>
    have present := h.present room (room.admits_key valid)
    simp only [contains, MemoryStore.contains, checkKey, valid, if_true, bind, Except.bind, present]
    rfl

theorem Mirrors.delete (h : s.Mirrors p t m) (room : s.IsRoomy) (id : AssetId) :
    (s.delete t id).2 = (m.delete id).2 ∧ s.Mirrors p (s.delete t id).1 (m.delete id).1 := by
  cases valid : isKey id.toList with
  | false =>
    simp only [LocalStore.delete, MemoryStore.delete, checkKey, valid, Bool.false_eq_true, if_false]
    exact ⟨trivial, h⟩
  | true =>
    have remove := h.remove room (room.admits_key valid)
    simp only [LocalStore.delete, MemoryStore.delete, checkKey, valid, if_true, remove]
    cases there : m.assets.lookup id with
    | none => exact ⟨rfl, h⟩
    | some bytes => exact ⟨rfl, h.erase room there⟩

/-- One call, as long as its temporary file takes nobody's name. -/
theorem Mirrors.step (h : s.Mirrors p t m) (room : s.IsRoomy) (call : StoreCall)
    (free : s.clashes m call = false) :
    (LocalStore.answer (s, t) call).2 = (m.answer call).2 ∧
      (LocalStore.answer (s, t) call).1.1 = s.counted call ∧
      (s.counted call).Mirrors p (LocalStore.answer (s, t) call).1.2 (m.answer call).1 := by
  cases call with
  | load id =>
    have same := h.load_eq room id
    simp only [LocalStore.answer, MemoryStore.answer, counted, same]
    exact ⟨trivial, trivial, h⟩
  | contains id =>
    have same := h.contains_eq room id
    simp only [LocalStore.answer, MemoryStore.answer, counted, same]
    exact ⟨trivial, trivial, h⟩
  | delete id =>
    obtain ⟨same, mirrors⟩ := h.delete room id
    simp only [LocalStore.answer, MemoryStore.answer, counted, same]
    exact ⟨trivial, trivial, mirrors⟩
  | save id bytes =>
    cases valid : isKey id.toList with
    | false =>
      simp only [LocalStore.answer, MemoryStore.answer, counted, LocalStore.save, saveUnder,
        MemoryStore.save, checkKey, valid, Bool.false_eq_true, if_false]
      exact ⟨trivial, trivial, h⟩
    | true =>
      obtain ⟨after, saved, leads, nothing, files⟩ := h.save room valid bytes
      have unused : m.assets.lookup (temporaryName id s.process s.sequence) = none := by
        simpa [clashes, valid] using free
      have stores : after.Stores p (m.answer (.save id bytes)).1 := by
        refine ⟨fun name => ?_, nothing⟩
        simp only [MemoryStore.answer, MemoryStore.save, checkKey, valid, if_true]
        rw [files, MemoryStore.lookup_save]
        by_cases same : name = id
        · rw [if_pos same, if_pos same]
          rfl
        · rw [if_neg same, if_neg same]
          by_cases temporary : name = temporaryName id s.process s.sequence
          · rw [if_pos temporary, temporary, unused]
            rfl
          · rw [if_neg temporary]
      simp only [LocalStore.answer, counted, saved, valid, if_true]
      refine ⟨?_, trivial, Mirrors.of_leads leads stores room⟩
      simp only [MemoryStore.answer, MemoryStore.save, checkKey, valid, if_true]

/-- A save that takes the name of an asset for its temporary file takes that asset away. -/
theorem Mirrors.not_stores_of_clash (h : s.Mirrors p t m) (room : s.IsRoomy) (call : StoreCall)
    (clash : s.clashes m call = true) :
    ¬(LocalStore.answer (s, t) call).1.2.Stores p (m.answer call).1 := by
  cases call with
  | load id => cases clash
  | contains id => cases clash
  | delete id => cases clash
  | save id bytes =>
    rw [clashes, Bool.and_eq_true] at clash
    obtain ⟨valid, used⟩ := clash
    obtain ⟨after, saved, -, -, files⟩ := h.save room valid bytes
    intro stores
    have lost := stores.files (temporaryName id s.process s.sequence)
    have other := temporaryName_ne id s.process s.sequence
    simp only [LocalStore.answer, saved, MemoryStore.answer, MemoryStore.save, checkKey, valid,
      if_true] at lost
    rw [files, if_neg other, if_pos rfl, MemoryStore.lookup_save, if_neg other, eq_comm,
      Option.map_eq_none_iff] at lost
    rw [lost] at used
    cases used

end

theorem counted_cases (s : LocalStore) (call : StoreCall) :
    s.counted call = s ∨ s.counted call = { s with sequence := s.sequence + 1 } := by
  cases call with
  | load id => exact .inl rfl
  | contains id => exact .inl rfl
  | delete id => exact .inl rfl
  | save id bytes =>
    simp only [counted]
    split
    · exact .inr rfl
    · exact .inl rfl

theorem IsRoomy.counted {s : LocalStore} (h : s.IsRoomy) (call : StoreCall) :
    (s.counted call).IsRoomy := by
  rcases s.counted_cases call with same | same
  · rw [same]
    exact h
  · rw [same]
    exact h

theorem process_counted (s : LocalStore) (call : StoreCall) :
    (s.counted call).process = s.process := by
  rcases s.counted_cases call with same | same
  · rw [same]
  · rw [same]

def everClashes (s : LocalStore) (m : MemoryStore) : List StoreCall → Bool
  | [] => false
  | call :: rest => s.clashes m call || everClashes (s.counted call) (m.answer call).1 rest

def Agrees (p : Location) (here : (LocalStore × FileTree) × StoreAnswer)
    (there : MemoryStore × StoreAnswer) : Prop :=
  here.2 = there.2 ∧ here.1.2.Stores p there.1

theorem Mirrors.run_iff {s : LocalStore} {p : Location} {t : FileTree} {m : MemoryStore}
    (h : s.Mirrors p t m) (room : s.IsRoomy) (calls : List StoreCall) :
    List.Forall₂ (Agrees p) (StoreCall.run LocalStore.answer (s, t) calls)
        (StoreCall.run MemoryStore.answer m calls) ↔
      s.everClashes m calls = false := by
  induction calls generalizing s t m with
  | nil => simp [StoreCall.run, everClashes]
  | cons call rest ih =>
    simp only [StoreCall.run, List.forall₂_cons, everClashes, Bool.or_eq_false_iff]
    cases free : s.clashes m call with
    | true =>
      have differs := h.not_stores_of_clash room call free
      simp [Agrees, differs]
    | false =>
      obtain ⟨same, next, mirrors⟩ := h.step room call free
      have roomy := room.counted call
      have stores := mirrors.stores roomy
      have state : (LocalStore.answer (s, t) call).1 =
          (s.counted call, (LocalStore.answer (s, t) call).1.2) := by
        rw [← next]
      simp only [Agrees, same, stores, true_and]
      rw [state]
      exact ih mirrors roomy

/-- What is not in memory gets there only by a save under its own name. -/
theorem lookup_answer_of_none {m : MemoryStore} {name : String}
    (unknown : m.assets.lookup name = none) (call : StoreCall)
    (other : ∀ id bytes, call = .save id bytes → id ≠ name) :
    (m.answer call).1.assets.lookup name = none := by
  cases call with
  | load id => exact unknown
  | contains id => exact unknown
  | delete id =>
    simp only [MemoryStore.answer, MemoryStore.delete]
    split
    · exact unknown
    · split
      · rw [MemoryStore.lookup_erase, unknown, ite_self]
      · exact unknown
  | save id bytes =>
    simp only [MemoryStore.answer, MemoryStore.save]
    split
    · exact unknown
    · rename_i key valid
      obtain ⟨-, rfl⟩ := Store.checkKey_eq_ok_iff.1 valid
      rw [MemoryStore.lookup_save, if_neg (other _ bytes rfl).symm, unknown]

theorem everClashes_eq_false {s : LocalStore} {m : MemoryStore} {calls : List StoreCall}
    (unused : ∀ key sequence, m.assets.lookup (temporaryName key s.process sequence) = none)
    (plain : ∀ id bytes, .save id bytes ∈ calls →
      ∀ key sequence, id ≠ temporaryName key s.process sequence) :
    s.everClashes m calls = false := by
  induction calls generalizing s m with
  | nil => rfl
  | cons call rest ih =>
    have free : s.clashes m call = false := by
      cases call with
      | load id => rfl
      | contains id => rfl
      | delete id => rfl
      | save id bytes => simp [clashes, unused]
    rw [everClashes, free, Bool.false_or]
    apply ih
    · intro key sequence
      rw [process_counted]
      refine lookup_answer_of_none (unused key sequence) call ?_
      rintro id bytes rfl
      exact plain id bytes (List.mem_cons_self ..) key sequence
    · intro id bytes among key sequence
      rw [process_counted]
      exact plain id bytes (List.mem_cons_of_mem _ among) key sequence

/-- All answers and all contents are those of the store in memory just when no temporary file has the
name of an asset, as is so when no id looks like the name of a temporary file. -/
theorem store_mirrors_memory (s : LocalStore) (p : Location) (t : FileTree)
    (empty : s.StartsEmpty p t) (room : s.IsRoomy) (calls : List StoreCall) :
    (List.Forall₂ (Agrees p) (StoreCall.run LocalStore.answer (s, t) calls)
        (StoreCall.run MemoryStore.answer {} calls) ↔ s.everClashes {} calls = false) ∧
    ((∀ id bytes, .save id bytes ∈ calls →
      ∀ key sequence, id ≠ temporaryName key s.process sequence) →
        s.everClashes {} calls = false) := by
  constructor
  · exact empty.mirrors.run_iff room calls
  · intro plain
    exact everClashes_eq_false (fun _ _ => rfl) plain

end LocalStore

theorem startsEmpty_shelf : LocalStore.shelf.StartsEmpty ["shelf"] {} := by
  have made : ({} : FileTree).makeDirectories LocalStore.shelf.root =
      (⟨[(["shelf"], .directory)]⟩, .ok ()) := by
    decide +kernel
  exact .of_straight made rfl (by decide +kernel) fun q _ => rfl

theorem shelf_mirrors_five_calls :
    List.Forall₂ (LocalStore.Agrees ["shelf"])
      (StoreCall.run LocalStore.answer (.shelf, {}) [.save "a" [1], .save "b" [2], .delete "a",
        .load "b", .contains "a"])
      (StoreCall.run MemoryStore.answer {} [.save "a" [1], .save "b" [2], .delete "a",
        .load "b", .contains "a"]) := by
  have mirrors := LocalStore.store_mirrors_memory .shelf ["shelf"] {} startsEmpty_shelf
    (by unfold LocalStore.IsRoomy; decide) [.save "a" [1], .save "b" [2], .delete "a", .load "b",
      .contains "a"]
  exact mirrors.1.2 (by decide +kernel)

/-- Saving one value loses another that is stored under the name of its temporary file, and the way to
a root may stand in the place of a value. -/
theorem shelf_loses_a_namesake :
    (LocalStore.shelf.StartsEmpty ["shelf"] {} ∧
      (StoreCall.run LocalStore.answer (LocalStore.shelf, {}) [.save ".a.7.1.tmp" [1],
        .save "a" [2], .load ".a.7.1.tmp"]).map Prod.snd =
          [.done, .done, .failed (.notFound ".a.7.1.tmp")] ∧
      (StoreCall.run MemoryStore.answer {} [.save ".a.7.1.tmp" [1], .save "a" [2],
        .load ".a.7.1.tmp"]).map Prod.snd = [.done, .done, .loaded [1]]) ∧
    (StoreCall.run LocalStore.answer (LocalStore.winding, {}) [.save "q" [1]]).map Prod.snd =
      [.failed (.writeFailed "q" .isDirectory)] ∧
    (StoreCall.run MemoryStore.answer {} [.save "q" [1]]).map Prod.snd = [.done] := by
  refine ⟨⟨startsEmpty_shelf, ?_, ?_⟩, ?_, ?_⟩
  · decide +kernel
  · decide +kernel
  · decide +kernel
  · decide +kernel

end Montage
