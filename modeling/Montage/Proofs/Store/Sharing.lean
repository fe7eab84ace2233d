import Mathlib.Algebra.Group.Nat.Defs
import Montage.Proofs.Store.Value
import Montage.Store.Interleaving

/-! Calls that go on at the same time, all for one id: what is known of each of them, and of the place
of that id, at any time. A step of one call leaves all of it true of the others. -/
namespace Montage

open Store (checkKey)
open LocalStore (found temporaryName)

theorem Bytes.overwrite_take (bytes : Bytes) {written : Nat} (part : written ≤ bytes.length)
    (size : Nat) : Bytes.overwrite (bytes.take written) written ((bytes.drop written).take size) =
      bytes.take (written + ((bytes.drop written).take size).length) := by
  have length : (bytes.take written).length = written := List.length_take_of_le part
  have behind : (bytes.take written).drop
      (written + ((bytes.drop written).take size).length) = [] :=
    List.drop_eq_nil_of_le (by omega)
  have piece : (bytes.drop written).take size =
      (bytes.drop written).take ((bytes.drop written).take size).length := by
    rw [List.length_take, ← List.take_take, List.take_length]
  rw [overwrite, length, behind, Nat.sub_self, List.replicate_zero, List.append_nil,
    List.append_nil, List.take_take, Nat.min_self, List.take_add, ← piece]

theorem LocalStore.temporaryName_inj {key : String} {process : UInt32} {n n' : UInt64}
    (same : temporaryName key process n = temporaryName key process n') : n = n' := by
  have texts : Numeral.text n.toNat = Numeral.text n'.toNat := by
    simpa [temporaryName, ← String.toList_inj] using same
  exact UInt64.toNat_inj.1 (Numeral.text_inj texts)

namespace FileTree

variable {t : FileTree} {p : Location} {r : Route} {name : String}

theorem Leads.locate_child (h : t.Leads r p) (room : r.Admits name) :
    t.locate (r.child name) = p ++ [name] := by
  rw [locate, h.walk_child room]

theorem overwrite_file {old : Bytes} (there : t.lookup p = some (.file old)) (position : Nat)
    (piece : Bytes) : t.overwrite (some p) position piece =
      t.put p (.file (old.overwrite position piece)) := by
  simp only [overwrite, there]

end FileTree

namespace StoreCall

def bytes? : StoreCall → Option Bytes
  | save _ bytes => some bytes
  | _ => none

def isSave (call : StoreCall) : Bool := call.bytes?.isSome

end StoreCall

namespace CallPhase

def isUnnumbered : CallPhase → Bool
  | waiting call => call.isSave
  | rooted _ _ => true
  | _ => false

theorem isUnnumbered_after (event : Option StoreEvent) (phase : CallPhase) :
    (phase.after event).isUnnumbered = phase.isUnnumbered := by
  cases phase <;> rfl

end CallPhase

namespace SharedStore

def valueWith (calls : List StoreCall) (value : Option Bytes) : Nat × StoreEvent → Option Bytes
  | (i, .moved _ _) => calls[i]?.bind StoreCall.bytes?
  | (_, .deleted _) => none
  | _ => value

/-- The value after all that has happened: that of the save which was last moved into place, as long as
no call deletes it. -/
def valueAfter (calls : List StoreCall) (first : Option Bytes) (history : List (Nat × StoreEvent)) :
    Option Bytes :=
  history.foldl (valueWith calls) first

/-- How a call is answered, by the value at the time of the event that settles it. -/
inductive Settles (id : AssetId) (value : Option Bytes) :
    StoreCall → StoreAnswer → StoreEvent → Prop
  | saved (bytes : Bytes) (source target : Location) :
      Settles id value (.save id bytes) .done (.moved source target)
  | loaded : Settles id value (.load id) (.of .loaded (found id value)) .looked
  | deleted (bytes : Bytes) (there : value = some bytes) (place : Location) :
      Settles id value (.delete id) .done (.deleted place)
  | absent (missing : value = none) : Settles id value (.delete id) (.failed (.notFound id)) .looked
  | contained : Settles id value (.contains id) (.found value.isSome) .looked

/-- Calls for one id of a store, and what it has under that id before them. -/
structure Setting where
  store : LocalStore
  tree : FileTree
  id : AssetId
  first : Option Bytes
  calls : List StoreCall
  root : Location
  offers : store.Offers tree id first
  same : ∀ call ∈ calls, call.id = id
  few : calls.countP StoreCall.isSave ≤ 2 ^ 64
  isRoot : ∀ attempts p, (store.rooted^[attempts] tree).Leads store.root p → p = root

namespace Setting

variable (c : Setting)

def place : Location := c.root ++ [c.id]

def temporary (n : UInt64) : Location := c.root ++ [temporaryName c.id c.store.process n]

def temporaryRoute (n : UInt64) : Route :=
  c.store.root.child (temporaryName c.id c.store.process n)

def value (history : List (Nat × StoreEvent)) : Option Bytes :=
  valueAfter c.calls c.first history

inductive Stands (m : SharedStore) (i : Nat) : StoreCall → CallPhase → Prop
  | waiting (call : StoreCall) (quiet : ∀ event, (i, event) ∉ m.history) :
      Stands m i call (.waiting call)
  | rooted (bytes : Bytes) (quiet : ∀ event, (i, event) ∉ m.history) :
      Stands m i (.save c.id bytes) (.rooted c.id bytes)
  | numbered (bytes : Bytes) (n : UInt64) (mine : (i, .numbered n) ∈ m.history)
      (unwritten : ∀ q, (i, .wrote q) ∉ m.history) :
      Stands m i (.save c.id bytes) (.numbered c.id bytes (c.temporaryRoute n))
  | writing (bytes : Bytes) (n : UInt64) (written : Nat) (mine : (i, .numbered n) ∈ m.history)
      (opened : (i, .wrote (c.temporary n)) ∈ m.history)
      (room : c.store.root.Admits (temporaryName c.id c.store.process n))
      (part : written ≤ bytes.length)
      (there : m.tree.lookup (c.temporary n) = some (.file (bytes.take written))) :
      Stands m i (.save c.id bytes)
        (.writing c.id bytes (c.temporaryRoute n) (some (c.temporary n)) written)
  | settled (call : StoreCall) (answer : StoreAnswer) (before after : List (Nat × StoreEvent))
      (event : StoreEvent) (whole : m.history = before ++ (i, event) :: after)
      (settles : Settles c.id (c.value before) call answer event) :
      Stands m i call (.finished answer)
  | unopened (bytes : Bytes) (cause : StorageError) (unwritten : ∀ q, (i, .wrote q) ∉ m.history) :
      Stands m i (.save c.id bytes) (.finished (.failed cause))

/-- No save has come past the making of the root yet, so that there is no value. -/
structure Untouched (m : SharedStore) : Prop where
  absent : c.first = none
  tree : ∃ attempts, m.tree = c.store.rooted^[attempts] c.tree
  idle : ∀ phase ∈ m.phases, (∃ call, phase = .waiting call) ∨ phase.isFinished = true
  looks : ∀ entry ∈ m.history, entry.2 = .looked

structure Placed (m : SharedStore) : Prop where
  leads : m.tree.Leads c.store.root c.root
  room : c.store.root.Admits c.id
  valid : checkKey c.id = .ok c.id
  there : m.tree.lookup c.place = (c.value m.history).map .file
  frame : ∃ attempts, ∀ q, q ≠ c.place → (∀ i, (i, .wrote q) ∉ m.history) →
    m.tree.lookup q = (c.store.rooted^[attempts] c.tree).lookup q

/-- The numbers that have been taken are the first from some on, and each belongs to one call. -/
structure Counted (m : SharedStore) (taken : Nat) : Prop where
  store : m.store = { c.store with sequence := c.store.sequence + UInt64.ofNat taken }
  room : taken + m.phases.countP CallPhase.isUnnumbered ≤ 2 ^ 64
  numbers : ∀ i n, (i, .numbered n) ∈ m.history →
    ∃ k < taken, n = c.store.sequence + UInt64.ofNat k
  distinct : ∀ i j n, (i, .numbered n) ∈ m.history → (j, .numbered n) ∈ m.history → i = j
  single : ∀ i n n', (i, .numbered n) ∈ m.history → (i, .numbered n') ∈ m.history → n = n'

structure Sound (m : SharedStore) : Prop where
  length : m.phases.length = c.calls.length
  stands : ∀ i call phase, c.calls[i]? = some call → m.phases[i]? = some phase →
    c.Stands m i call phase
  counted : ∃ taken, c.Counted m taken
  wrote : ∀ i q, (i, .wrote q) ∈ m.history → ∃ n, (i, .numbered n) ∈ m.history ∧
    q = c.temporary n ∧ (m.tree.lookup q = none ∨ ∃ bytes written,
      m.phases[i]? = some (.writing c.id bytes (c.temporaryRoute n) (some q) written))
  stage : c.Untouched m ∨ c.Placed m

structure Apart (m : SharedStore) (i : Nat) (done : CallStep) : Prop where
  tree : ∀ j n, j ≠ i → (j, .numbered n) ∈ m.history →
    done.tree.lookup (c.temporary n) = m.tree.lookup (c.temporary n)
  event : ∀ event, done.event = some event → ∀ j n, j ≠ i → (j, .numbered n) ∈ m.history →
    event.follow (c.temporary n) = some (c.temporary n)

end Setting

section
variable {m : SharedStore} {i j : Nat} {done : CallStep}

theorem mem_history_update {event : StoreEvent} :
    (j, event) ∈ (m.update i done).history ↔
      (j, event) ∈ m.history ∨ j = i ∧ done.event = some event := by
  cases happened : done.event with
  | none => simp [update, happened]
  | some other => simp [update, happened, eq_comm]

theorem mem_history_update_of_ne {event : StoreEvent} (other : j ≠ i) :
    (j, event) ∈ (m.update i done).history ↔ (j, event) ∈ m.history := by
  rw [mem_history_update]
  simp [other]

theorem getElem?_update_self (bound : i < m.phases.length) :
    (m.update i done).phases[i]? = some done.phase := by
  simp [update, bound]

theorem getElem?_update_of_ne (other : j ≠ i) :
    (m.update i done).phases[j]? = m.phases[j]?.map (.after done.event) := by
  simp [update, List.getElem?_set_ne other.symm]

theorem countP_update {phase : CallPhase} (there : m.phases[i]? = some phase) :
    (m.update i done).phases.countP CallPhase.isUnnumbered =
      m.phases.countP CallPhase.isUnnumbered - (if phase.isUnnumbered then 1 else 0) +
        if done.phase.isUnnumbered then 1 else 0 := by
  obtain ⟨bound, found⟩ := List.getElem?_eq_some_iff.1 there
  have followed : CallPhase.isUnnumbered ∘ CallPhase.after done.event = CallPhase.isUnnumbered :=
    funext fun phase => phase.isUnnumbered_after done.event
  rw [update, List.countP_set (by rwa [List.length_map]), List.countP_map, followed]
  simp only [List.getElem_map, found, CallPhase.isUnnumbered_after]

end

namespace Setting

variable {c : Setting} {m : SharedStore} {i j : Nat} {done : CallStep} {call : StoreCall}
  {phase : CallPhase}

theorem temporary_inj {n n' : UInt64} (same : c.temporary n = c.temporary n') : n = n' := by
  have names := List.append_cancel_left same
  rw [List.cons.injEq] at names
  exact LocalStore.temporaryName_inj names.1

theorem temporary_ne_place (n : UInt64) : c.temporary n ≠ c.place := by
  intro same
  have names := List.append_cancel_left same
  rw [List.cons.injEq] at names
  exact LocalStore.temporaryName_ne _ _ _ names.1

/-- What is known of a call stays so while another takes a step. -/
theorem Stands.update_of_ne (h : c.Stands m j call phase) (apart : c.Apart m i done) (other : j ≠ i) :
    phase.after done.event = phase ∧ c.Stands (m.update i done) j call phase := by
  have events : ∀ event, (j, event) ∈ (m.update i done).history ↔ (j, event) ∈ m.history :=
    fun event => mem_history_update_of_ne other
  cases h with
  | waiting _ quiet => exact ⟨rfl, .waiting _ (by simpa only [events] using quiet)⟩
  | rooted bytes quiet => exact ⟨rfl, .rooted _ (by simpa only [events] using quiet)⟩
  | numbered bytes n mine unwritten =>
    exact ⟨rfl, .numbered bytes n ((events _).2 mine) (by simpa only [events] using unwritten)⟩
  | writing bytes n written mine opened room part there =>
    have still : (m.update i done).tree.lookup (c.temporary n) =
        some (.file (bytes.take written)) := (apart.tree j n other mine).trans there
    refine ⟨?_, .writing bytes n written ((events _).2 mine) ((events _).2 opened) room part still⟩
    cases happened : done.event with
    | none => rfl
    | some event => simp [CallPhase.after, apart.event event happened j n other mine]
  | settled _ answer before after event whole settles =>
    refine ⟨rfl, .settled _ answer before (after ++ (done.event.map (i, ·)).toList) event ?_ settles⟩
    simp [update, whole]
  | unopened bytes cause unwritten =>
    exact ⟨rfl, .unopened bytes cause (by simpa only [events] using unwritten)⟩

theorem Sound.update (h : c.Sound m) (called : c.calls[i]? = some call)
    (apart : c.Apart m i done) (stands : c.Stands (m.update i done) i call done.phase)
    (counted : ∃ taken, c.Counted (m.update i done) taken)
    (wrote : ∀ q, (i, .wrote q) ∈ (m.update i done).history →
      ∃ n, (i, .numbered n) ∈ (m.update i done).history ∧ q = c.temporary n ∧
        (done.tree.lookup q = none ∨ ∃ bytes written,
          done.phase = .writing c.id bytes (c.temporaryRoute n) (some q) written))
    (stage : c.Untouched (m.update i done) ∨ c.Placed (m.update i done)) :
    c.Sound (m.update i done) := by
  have bound : i < m.phases.length := by
    rw [h.length]
    exact (List.getElem?_eq_some_iff.1 called).1
  refine ⟨?_, ?_, counted, ?_, stage⟩
  · rw [SharedStore.update, List.length_set, List.length_map, h.length]
  · intro j call' phase called' there
    by_cases same : j = i
    · subst same
      rw [getElem?_update_self bound] at there
      cases called.symm.trans called'
      cases there
      exact stands
    · rw [getElem?_update_of_ne same, Option.map_eq_some_iff] at there
      obtain ⟨before, there, rfl⟩ := there
      obtain ⟨followed, still⟩ := (h.stands j call' before called' there).update_of_ne apart same
      rwa [followed]
  · intro j q written
    by_cases same : j = i
    · subst same
      rw [getElem?_update_self bound]
      obtain ⟨n, mine, rfl, left⟩ := wrote q written
      refine ⟨n, mine, rfl, ?_⟩
      rcases left with gone | ⟨bytes, count, writing⟩
      · exact .inl gone
      · exact .inr ⟨bytes, count, congrArg some writing⟩
    · rw [mem_history_update_of_ne same] at written
      obtain ⟨n, mine, rfl, left⟩ := h.wrote j q written
      refine ⟨n, (mem_history_update_of_ne same).2 mine, rfl, ?_⟩
      rcases left with gone | ⟨bytes, count, there⟩
      · exact .inl ((apart.tree j n same mine).trans gone)
      · right
        refine ⟨bytes, count, ?_⟩
        rw [getElem?_update_of_ne same, there]
        cases happened : done.event with
        | none => rfl
        | some event => simp [CallPhase.after, apart.event event happened j n same mine]

theorem value_update_of_none (unchanged : done.event = none) :
    c.value (m.update i done).history = c.value m.history := by
  simp [SharedStore.update, unchanged]

theorem value_update_of_some {event : StoreEvent} (happened : done.event = some event) :
    c.value (m.update i done).history = valueWith c.calls (c.value m.history) (i, event) := by
  simp [SharedStore.update, happened, value, valueAfter]

theorem Counted.update {taken : Nat} (h : c.Counted m taken) (there : m.phases[i]? = some phase)
    (store : done.store = m.store) (unnumbered : ∀ n, done.event ≠ some (.numbered n))
    (fewer : done.phase.isUnnumbered = true → phase.isUnnumbered = true) :
    c.Counted (m.update i done) taken := by
  have numbered : ∀ j n, (j, .numbered n) ∈ (m.update i done).history ↔
      (j, .numbered n) ∈ m.history := by
    intro j n
    rw [mem_history_update]
    simp [unnumbered]
  refine ⟨store.trans h.store, ?_, ?_, ?_, ?_⟩
  · have room := h.room
    rw [countP_update there]
    have one : phase.isUnnumbered = true → 1 ≤ m.phases.countP CallPhase.isUnnumbered :=
      fun counts => List.countP_pos_iff.2 ⟨phase, List.mem_of_getElem? there, counts⟩
    by_cases before : phase.isUnnumbered = true
    · have pending := one before
      rw [if_pos before]
      split <;> omega
    · have after : ¬done.phase.isUnnumbered = true := fun counts => before (fewer counts)
      rw [if_neg before, if_neg after]
      exact room
  · simpa only [numbered] using h.numbers
  · simpa only [numbered] using h.distinct
  · simpa only [numbered] using h.single

theorem Placed.update (h : c.Placed m) (leads : done.tree.Leads c.store.root c.root)
    (there : done.tree.lookup c.place = (c.value (m.update i done).history).map .file)
    (frame : ∀ q, q ≠ c.place → (∀ j, (j, .wrote q) ∉ (m.update i done).history) →
      done.tree.lookup q = m.tree.lookup q) : c.Placed (m.update i done) := by
  obtain ⟨attempts, before⟩ := h.frame
  refine ⟨leads, h.room, h.valid, there, attempts, fun q other unwritten => ?_⟩
  have unwritten' : ∀ j, (j, .wrote q) ∉ m.history :=
    fun j written => unwritten j (mem_history_update.2 (.inl written))
  exact (frame q other unwritten).trans (before q other unwritten')

theorem Untouched.value_eq (h : c.Untouched m) : c.value m.history = none := by
  have still : ∀ history : List (Nat × StoreEvent), (∀ entry ∈ history, entry.2 = .looked) →
      ∀ value, history.foldl (valueWith c.calls) value = value := by
    intro history looks
    induction history with
    | nil => exact fun value => rfl
    | cons entry rest ih =>
      rw [List.forall_mem_cons] at looks
      obtain ⟨i, event⟩ := entry
      obtain ⟨rfl, others⟩ := looks
      exact ih others
  rw [Setting.value, valueAfter, still _ h.looks, h.absent]

theorem Sound.load_eq (h : c.Sound m) :
    c.store.load m.tree c.id = found c.id (c.value m.history) := by
  rcases h.stage with untouched | placed
  · obtain ⟨attempts, tree⟩ := untouched.tree
    have before := c.offers attempts
    rwa [← tree, untouched.absent, ← untouched.value_eq] at before
  · exact (LocalStore.load_eq_found_iff placed.leads).2 ⟨placed.valid, placed.room, placed.there⟩

theorem Sound.valid (h : c.Sound m) : checkKey c.id = .ok c.id := by
  have load := h.load_eq
  cases there : c.value m.history with
  | none =>
    rw [there] at load
    exact (LocalStore.load_eq_notFound_iff.1 load).1
  | some bytes =>
    rw [there] at load
    obtain ⟨key, valid, -⟩ := LocalStore.load_eq_ok_iff.1 load
    obtain ⟨-, rfl⟩ := Store.checkKey_eq_ok_iff.1 valid
    exact valid

/-- The store of a run is the one of its beginning but for the next number. -/
theorem Sound.exists_store (h : c.Sound m) :
    ∃ n, m.store = { c.store with sequence := n } := by
  obtain ⟨taken, counted⟩ := h.counted
  exact ⟨_, counted.store⟩

theorem Sound.root_eq (h : c.Sound m) : m.store.root = c.store.root := by
  obtain ⟨n, store⟩ := h.exists_store
  rw [store]

theorem Sound.placed_of_value (h : c.Sound m) {bytes : Bytes}
    (stored : c.value m.history = some bytes) : c.Placed m := by
  rcases h.stage with untouched | placed
  · cases untouched.value_eq.symm.trans stored
  · exact placed

theorem Apart.of_tree_eq (tree : done.tree = m.tree)
    (event : ∀ event, done.event = some event → ∀ p, event.follow p = some p) :
    c.Apart m i done :=
  ⟨fun _ _ _ _ => by rw [tree], fun e happened _ _ _ _ => event e happened _⟩

theorem Untouched.update (h : c.Untouched m)
    (tree : ∃ attempts, done.tree = c.store.rooted^[attempts] c.tree)
    (event : done.event = none ∨ done.event = some .looked)
    (ended : done.phase.isFinished = true) : c.Untouched (m.update i done) := by
  refine ⟨h.absent, tree, ?_, ?_⟩
  · intro phase among
    rcases List.mem_or_eq_of_mem_set among with other | rfl
    · obtain ⟨before, there, rfl⟩ := List.mem_map.1 other
      rcases h.idle before there with ⟨call, rfl⟩ | finished
      · exact .inl ⟨call, rfl⟩
      · cases before with
        | finished answer => exact .inr rfl
        | _ => cases finished
    · exact .inr ended
  · intro entry among
    obtain ⟨j, event'⟩ := entry
    rcases mem_history_update.1 among with before | ⟨-, happened⟩
    · exact h.looks _ before
    · rcases event with silent | looked
      · cases silent.symm.trans happened
      · cases looked.symm.trans happened
        rfl

structure IsIdle (m : SharedStore) (done : CallStep) : Prop where
  store : done.store = m.store
  tree : done.tree = m.tree
  event : done.event = none ∨ done.event = some .looked

theorem Sound.update_of_idle (h : c.Sound m) (called : c.calls[i]? = some call)
    (there : m.phases[i]? = some phase) (idle : IsIdle m done)
    (unwritten : ∀ q, (i, .wrote q) ∉ m.history)
    (fewer : done.phase.isUnnumbered = true → phase.isUnnumbered = true)
    (ended : c.Placed m ∨ done.phase.isFinished = true)
    (stands : c.Stands (m.update i done) i call done.phase) : c.Sound (m.update i done) := by
  obtain ⟨taken, counted⟩ := h.counted
  have value : c.value (m.update i done).history = c.value m.history := by
    rcases idle.event with silent | looked
    · exact value_update_of_none silent
    · exact value_update_of_some looked
  have wrote : ∀ j q, (j, .wrote q) ∈ (m.update i done).history ↔ (j, .wrote q) ∈ m.history := by
    intro j q
    rw [mem_history_update]
    rcases idle.event with silent | looked <;> simp [*]
  refine h.update called ?_ stands ⟨taken, ?_⟩ ?_ ?_
  · refine .of_tree_eq idle.tree fun event happened p => ?_
    rcases idle.event with silent | looked
    · cases silent.symm.trans happened
    · cases looked.symm.trans happened
      rfl
  · refine counted.update there idle.store (fun n => ?_) fewer
    rcases idle.event with silent | looked <;> simp [*]
  · intro q written
    exact absurd ((wrote i q).1 written) (unwritten q)
  · have still (placed : c.Placed m) : c.Placed (m.update i done) := by
      refine placed.update (idle.tree ▸ placed.leads) ?_ fun q _ _ => by rw [idle.tree]
      rw [idle.tree, value, placed.there]
    rcases ended with placed | ended
    · exact .inr (still placed)
    · rcases h.stage with untouched | placed
      · obtain ⟨attempts, tree⟩ := untouched.tree
        exact .inl (untouched.update ⟨attempts, idle.tree.trans tree⟩ idle.event ended)
      · exact .inr (still placed)

end Setting
end SharedStore
end Montage
