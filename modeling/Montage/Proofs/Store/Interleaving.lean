import Montage.Proofs.Store.Sharing

/-! Calls that go on at the same time, step by step. Every save has a number of its own and writes to a
temporary file that no other call touches, so that the place of the id always holds a whole value. -/
namespace Montage.SharedStore

open Store (checkKey)
open LocalStore (found temporaryName)

namespace Setting

variable {c : Setting} {m : SharedStore} {i j : Nat} {done : CallStep} {call : StoreCall}
  {phase : CallPhase}

/-- A call that only looks is answered by the value at that time. -/
theorem Sound.look (h : c.Sound m) (called : c.calls[i]? = some call)
    (there : m.phases[i]? = some (.waiting call)) (quiet : ∀ event, (i, event) ∉ m.history)
    {answer : StoreAnswer} (settles : Settles c.id (c.value m.history) call answer .looked) :
    c.Sound (m.update i ⟨.finished answer, m.store, m.tree, some .looked⟩) :=
  h.update_of_idle called there ⟨rfl, rfl, .inr rfl⟩ (fun _ => quiet _) (fun h => nomatch h)
    (.inr rfl) (.settled call answer m.history [] .looked rfl settles)

/-- The making of the root, while it has not been there. -/
theorem Sound.update_of_untouched (h : c.Sound m) (untouched : c.Untouched m)
    (called : c.calls[i]? = some call) (there : m.phases[i]? = some phase)
    (store : done.store = m.store) (event : done.event = none)
    (fewer : done.phase.isUnnumbered = true → phase.isUnnumbered = true)
    (stands : c.Stands (m.update i done) i call done.phase)
    (stage : c.Untouched (m.update i done) ∨ c.Placed (m.update i done)) :
    c.Sound (m.update i done) := by
  obtain ⟨taken, counted⟩ := h.counted
  have unnumbered : ∀ j n, (j, .numbered n) ∉ m.history :=
    fun j n taken => nomatch untouched.looks _ taken
  have unwritten : ∀ j q, (j, .wrote q) ∉ m.history :=
    fun j q written => nomatch untouched.looks _ written
  refine h.update called ?_ stands ⟨taken, ?_⟩ ?_ stage
  · exact ⟨fun j n _ mine => absurd mine (unnumbered j n),
      fun _ _ j n _ mine => absurd mine (unnumbered j n)⟩
  · exact counted.update there store (fun n => by simp [event]) fewer
  · intro q written
    rw [mem_history_update] at written
    simp [event, unwritten] at written

theorem Sound.start_save (h : c.Sound m) {bytes : Bytes}
    (called : c.calls[i]? = some (.save c.id bytes))
    (there : m.phases[i]? = some (.waiting (.save c.id bytes)))
    (quiet : ∀ event, (i, event) ∉ m.history) (size : Nat) :
    c.Sound (m.update i (CallPhase.step size m.store m.tree (.waiting (.save c.id bytes)))) := by
  have still {done : CallStep} (silent : done.event = none) (event : StoreEvent) :
      (i, event) ∉ (m.update i done).history := by
    rw [mem_history_update]
    simp [quiet, silent]
  simp only [CallPhase.step, h.valid, h.root_eq]
  rcases h.stage with untouched | placed
  · obtain ⟨attempts, tree⟩ := untouched.tree
    have next : (m.tree.makeDirectories c.store.root).1 = c.store.rooted^[attempts + 1] c.tree := by
      rw [Function.iterate_succ_apply', ← tree]
      rfl
    cases made : m.tree.makeDirectories c.store.root with | mk grown result =>
    rw [made] at next
    cases result with
    | error cause =>
      refine h.update_of_untouched untouched called there rfl rfl (fun h => nomatch h)
        (.unopened bytes _ fun q => still rfl _) (.inl ?_)
      exact untouched.update ⟨_, next⟩ (.inl rfl) rfl
    | ok =>
      have load := c.offers (attempts + 1)
      rw [← next] at load
      obtain ⟨p, leads⟩ := FileTree.leads_of_makeDirectories made
      obtain rfl := c.isRoot (attempts + 1) p (next ▸ leads)
      obtain ⟨valid, room, absent⟩ := (LocalStore.load_eq_found_iff leads).1 load
      refine h.update_of_untouched untouched called there rfl rfl (fun _ => rfl)
        (.rooted bytes fun event => still rfl event) (.inr ?_)
      refine ⟨leads, room, valid, ?_, attempts + 1, fun q _ _ => by rw [← next]; rfl⟩
      rw [value_update_of_none rfl, untouched.value_eq, ← untouched.absent]
      exact absent
  · have kept : m.tree.makeDirectories c.store.root = (m.tree, .ok ()) :=
      FileTree.makeDirectories_of_leads placed.leads placed.room.size_lt
    rw [kept]
    exact h.update_of_idle called there ⟨rfl, rfl, .inl rfl⟩ (fun _ => quiet _) (fun _ => rfl)
      (.inl placed) (.rooted bytes fun event => still rfl event)

theorem Counted.fresh {taken : Nat} (h : c.Counted m taken) (short : taken < 2 ^ 64) (j : Nat) :
    (j, .numbered (c.store.sequence + UInt64.ofNat taken)) ∉ m.history := by
  intro used
  obtain ⟨k, less, same⟩ := h.numbers j _ used
  have equal : UInt64.ofNat taken = UInt64.ofNat k := (UInt64.add_right_inj _).1 same
  have numbers := congrArg UInt64.toNat equal
  rw [UInt64.toNat_ofNat_of_lt' short, UInt64.toNat_ofNat_of_lt' (less.trans short)] at numbers
  exact less.ne' numbers

theorem Counted.take_number {taken : Nat} (h : c.Counted m taken)
    (there : m.phases[i]? = some phase) (pending : phase.isUnnumbered = true)
    (quiet : ∀ event, (i, event) ∉ m.history)
    (store : done.store = { m.store with sequence := m.store.sequence + 1 })
    (event : done.event = some (.numbered m.store.sequence))
    (ready : done.phase.isUnnumbered = false) : c.Counted (m.update i done) (taken + 1) := by
  have one : 1 ≤ m.phases.countP CallPhase.isUnnumbered :=
    List.countP_pos_iff.2 ⟨phase, List.mem_of_getElem? there, pending⟩
  have room := h.room
  have fresh := h.fresh (by omega)
  have sequence : m.store.sequence = c.store.sequence + UInt64.ofNat taken := by rw [h.store]
  have numbered : ∀ j n, (j, .numbered n) ∈ (m.update i done).history ↔
      (j, .numbered n) ∈ m.history ∨ j = i ∧ c.store.sequence + UInt64.ofNat taken = n := by
    intro j n
    rw [mem_history_update, event, sequence]
    simp
  refine ⟨?_, ?_, ?_, ?_, ?_⟩
  · change done.store = _
    rw [store, h.store, UInt64.ofNat_add, ← UInt64.add_assoc]
    rfl
  · rw [countP_update there, pending, ready]
    simp only [Bool.false_eq_true, if_true, if_false]
    omega
  · intro j n mine
    rcases (numbered j n).1 mine with before | ⟨-, rfl⟩
    · obtain ⟨k, less, same⟩ := h.numbers j n before
      exact ⟨k, by omega, same⟩
    · exact ⟨taken, by omega, rfl⟩
  · intro j j' n mine other
    rcases (numbered j n).1 mine with before | ⟨rfl, new⟩
    · rcases (numbered j' n).1 other with before' | ⟨-, new⟩
      · exact h.distinct j j' n before before'
      · exact absurd (new ▸ before) (fresh j)
    · rcases (numbered j' n).1 other with before' | ⟨rfl, -⟩
      · exact absurd (new ▸ before') (fresh j')
      · rfl
  · intro j n n' mine other
    rcases (numbered j n).1 mine with before | ⟨rfl, new⟩
    · rcases (numbered j n').1 other with before' | ⟨rfl, -⟩
      · exact h.single j n n' before before'
      · exact absurd before (quiet _)
    · rcases (numbered j n').1 other with before' | ⟨-, new'⟩
      · exact absurd before' (quiet _)
      · exact new.symm.trans new'

theorem Sound.placed_of_there (h : c.Sound m) (there : m.phases[i]? = some phase)
    (begun : ∀ call, phase ≠ .waiting call) (unfinished : phase.isFinished = false) : c.Placed m := by
  rcases h.stage with untouched | placed
  · rcases untouched.idle phase (List.mem_of_getElem? there) with ⟨call, rfl⟩ | finished
    · exact absurd rfl (begun call)
    · cases finished.symm.trans unfinished
  · exact placed

theorem Sound.take_number (h : c.Sound m) {bytes : Bytes}
    (called : c.calls[i]? = some (.save c.id bytes))
    (there : m.phases[i]? = some (.rooted c.id bytes))
    (quiet : ∀ event, (i, event) ∉ m.history) (size : Nat) :
    c.Sound (m.update i (CallPhase.step size m.store m.tree (.rooted c.id bytes))) := by
  obtain ⟨taken, counted⟩ := h.counted
  obtain ⟨number, store⟩ := h.exists_store
  have placed := h.placed_of_there there (fun _ => nofun) rfl
  have unwritten : ∀ j q, (j, .wrote q) ∈ (m.update i (CallPhase.step size m.store m.tree
      (.rooted c.id bytes))).history ↔ (j, .wrote q) ∈ m.history := by
    intro j q
    rw [mem_history_update]
    simp [CallPhase.step]
  have temporary : m.store.temporaryPlace c.id = c.temporaryRoute m.store.sequence := by
    rw [store]
    rfl
  refine h.update called ?_ ?_ ⟨taken + 1, ?_⟩ ?_ (.inr ?_)
  · refine .of_tree_eq rfl fun event happened p => ?_
    cases happened
    rfl
  · simp only [CallPhase.step, temporary]
    refine .numbered bytes m.store.sequence ?_ fun q => ?_
    · exact mem_history_update.2 (.inr ⟨rfl, rfl⟩)
    · rw [mem_history_update]
      simp [quiet]
  · exact counted.take_number there rfl quiet rfl rfl rfl
  · intro q written
    exact absurd ((unwritten i q).1 written) (quiet _)
  · refine placed.update placed.leads ?_ fun q _ _ => rfl
    rw [value_update_of_some rfl]
    exact placed.there

section
variable {n : UInt64}

theorem Sound.number_of_wrote (h : c.Sound m) (mine : (i, .numbered n) ∈ m.history) {q : Location}
    (written : (i, .wrote q) ∈ m.history) : q = c.temporary n := by
  obtain ⟨taken, counted⟩ := h.counted
  obtain ⟨n', other, rfl, -⟩ := h.wrote i q written
  rw [counted.single i n n' mine other]

/-- A save may change its own temporary file, and the place of the id. -/
theorem Sound.apart (h : c.Sound m) (mine : (i, .numbered n) ∈ m.history)
    (tree : ∀ q, q ≠ c.temporary n → q ≠ c.place → done.tree.lookup q = m.tree.lookup q)
    (event : ∀ event, done.event = some event → ∀ n', n' ≠ n →
      event.follow (c.temporary n') = some (c.temporary n')) : c.Apart m i done := by
  obtain ⟨taken, counted⟩ := h.counted
  have others {j : Nat} {n' : UInt64} (other : j ≠ i) (theirs : (j, .numbered n') ∈ m.history) :
      n' ≠ n := fun same => other (counted.distinct j i n (same ▸ theirs) mine)
  refine ⟨fun j n' other theirs => ?_, fun e happened j n' other theirs => ?_⟩
  · exact tree _ (fun same => others other theirs (temporary_inj same)) (temporary_ne_place n')
  · exact event e happened n' (others other theirs)

/-- A save opens its temporary file, or writes more of its bytes to it. -/
theorem Sound.write (h : c.Sound m) {bytes : Bytes} (called : c.calls[i]? = some (.save c.id bytes))
    (there : m.phases[i]? = some phase) (placed : c.Placed m)
    (mine : (i, .numbered n) ∈ m.history)
    (room : c.store.root.Admits (temporaryName c.id c.store.process n))
    (clear : m.tree.lookup (c.temporary n) ≠ some .directory) {written : Nat}
    (part : written ≤ bytes.length) :
    c.Sound (m.update i ⟨.writing c.id bytes (c.temporaryRoute n) (some (c.temporary n)) written,
      m.store, m.tree.put (c.temporary n) (.file (bytes.take written)),
      some (.wrote (c.temporary n))⟩) := by
  obtain ⟨taken, counted⟩ := h.counted
  have own : (m.tree.put (c.temporary n) (.file (bytes.take written))).lookup (c.temporary n) =
      some (.file (bytes.take written)) :=
    FileTree.lookup_put_self (by simp [temporary])
  refine h.update called ?_ ?_ ⟨taken, ?_⟩ ?_ (.inr ?_)
  · refine h.apart mine (fun q other _ => FileTree.lookup_put_of_ne other) ?_
    intro event happened n' other
    cases happened
    rfl
  · exact .writing bytes n written (mem_history_update.2 (.inl mine))
      (mem_history_update.2 (.inr ⟨rfl, rfl⟩)) room part own
  · exact counted.update there rfl (fun _ => nofun) nofun
  · intro q wrote
    have here : q = c.temporary n := by
      rcases mem_history_update.1 wrote with before | ⟨-, happened⟩
      · exact h.number_of_wrote mine before
      · cases happened
        rfl
    subst here
    exact ⟨n, mem_history_update.2 (.inl mine), rfl, .inr ⟨bytes, written, rfl⟩⟩
  · refine placed.update (placed.leads.put clear) ?_ ?_
    · rw [value_update_of_some rfl]
      exact (FileTree.lookup_put_of_ne (temporary_ne_place n).symm).trans placed.there
    · intro q other unwritten
      refine FileTree.lookup_put_of_ne ?_
      rintro rfl
      exact unwritten i (mem_history_update.2 (.inr ⟨rfl, rfl⟩))

/-- A save moves its temporary file, which holds all its bytes, into place. -/
theorem Sound.move (h : c.Sound m) {bytes : Bytes} (called : c.calls[i]? = some (.save c.id bytes))
    (there : m.phases[i]? = some phase) (placed : c.Placed m)
    (mine : (i, .numbered n) ∈ m.history) (opened : (i, .wrote (c.temporary n)) ∈ m.history)
    (whole : m.tree.lookup (c.temporary n) = some (.file bytes)) :
    c.Sound (m.update i ⟨.finished .done, m.store,
      (m.tree.erase (c.temporary n)).put c.place (.file bytes),
      some (.moved (c.temporary n) c.place)⟩) := by
  obtain ⟨taken, counted⟩ := h.counted
  have free : (m.tree.erase (c.temporary n)).lookup c.place ≠ some .directory := by
    rw [FileTree.lookup_erase_of_ne (temporary_ne_place n).symm, placed.there]
    cases c.value m.history <;> simp
  have gone : ((m.tree.erase (c.temporary n)).put c.place (.file bytes)).lookup (c.temporary n) =
      none := by
    rw [FileTree.lookup_put_of_ne (temporary_ne_place n),
      FileTree.lookup_erase (by simp [temporary]), if_pos rfl]
  refine h.update called ?_ ?_ ⟨taken, ?_⟩ ?_ (.inr ?_)
  · refine h.apart mine (fun q other elsewhere => ?_) ?_
    · exact (FileTree.lookup_put_of_ne elsewhere).trans (FileTree.lookup_erase_of_ne other)
    · intro event happened n' other
      cases happened
      have apart : c.temporary n' ≠ c.temporary n := fun same => other (temporary_inj same)
      simp [StoreEvent.follow, apart, temporary_ne_place n']
  · exact .settled _ .done m.history [] _ rfl (.saved bytes _ _)
  · exact counted.update there rfl (fun _ => nofun) nofun
  · intro q wrote
    rcases mem_history_update.1 wrote with before | ⟨-, happened⟩
    · obtain rfl := h.number_of_wrote mine before
      exact ⟨n, mem_history_update.2 (.inl mine), rfl, .inl gone⟩
    · cases happened
  · refine placed.update ((placed.leads.erase (by simp [whole])).put free) ?_ ?_
    · rw [value_update_of_some rfl, valueWith, called]
      exact FileTree.lookup_put_self (by simp [place])
    · intro q other unwritten
      have elsewhere : q ≠ c.temporary n := by
        rintro rfl
        exact unwritten i (mem_history_update.2 (.inl opened))
      exact (FileTree.lookup_put_of_ne other).trans (FileTree.lookup_erase_of_ne elsewhere)

end

theorem Sound.delete (h : c.Sound m) (called : c.calls[i]? = some (.delete c.id))
    (there : m.phases[i]? = some phase) (quiet : ∀ event, (i, event) ∉ m.history)
    {bytes : Bytes} (stored : c.value m.history = some bytes) :
    c.Sound (m.update i ⟨.finished .done, m.store, m.tree.erase c.place,
      some (.deleted c.place)⟩) := by
  obtain ⟨taken, counted⟩ := h.counted
  have placed := h.placed_of_value stored
  have file : m.tree.lookup c.place ≠ some .directory := by simp [placed.there, stored]
  refine h.update called ⟨?_, ?_⟩ ?_ ⟨taken, ?_⟩ ?_ (.inr ?_)
  · intro j n _ _
    exact FileTree.lookup_erase_of_ne (temporary_ne_place n)
  · intro event happened j n _ _
    cases happened
    exact if_neg (temporary_ne_place n)
  · exact .settled _ .done m.history [] _ rfl (.deleted bytes stored _)
  · exact counted.update there rfl (fun _ => nofun) nofun
  · intro q wrote
    rcases mem_history_update.1 wrote with before | ⟨-, happened⟩
    · exact absurd before (quiet _)
    · cases happened
  · refine placed.update (placed.leads.erase file) ?_ fun q other _ =>
      FileTree.lookup_erase_of_ne other
    rw [value_update_of_some rfl]
    exact (FileTree.lookup_erase (by simp [place])).trans (if_pos rfl)

theorem update_of_finished {answer : StoreAnswer} (there : m.phases[i]? = some (.finished answer)) :
    m.update i ⟨.finished answer, m.store, m.tree, none⟩ = m := by
  have same : CallPhase.after none = fun phase => phase := by
    funext phase
    cases phase <;> rfl
  obtain ⟨bound, found⟩ := List.getElem?_eq_some_iff.1 there
  simp only [SharedStore.update, same, List.map_id', Option.map_none, Option.toList_none,
    List.append_nil]
  rw [← found, List.set_getElem_self]

theorem Sound.answer (h : c.Sound m) (called : c.calls[i]? = some call)
    (there : m.phases[i]? = some (.waiting call)) (quiet : ∀ event, (i, event) ∉ m.history)
    (size : Nat) : c.Sound (m.update i (CallPhase.step size m.store m.tree (.waiting call))) := by
  have load : m.store.load m.tree c.id = found c.id (c.value m.history) := by
    obtain ⟨number, store⟩ := h.exists_store
    rw [← h.load_eq, store]
    rfl
  have mine := c.same _ (List.mem_of_getElem? called)
  cases call with
  | save id bytes =>
    obtain rfl : id = c.id := mine
    exact h.start_save called there quiet size
  | load id =>
    obtain rfl : id = c.id := mine
    simp only [CallPhase.step, LocalStore.answer, load]
    exact h.look called there quiet .loaded
  | contains id =>
    obtain rfl : id = c.id := mine
    simp only [CallPhase.step, LocalStore.answer, LocalStore.contains_of_load load]
    exact h.look called there quiet .contained
  | delete id =>
    obtain rfl : id = c.id := mine
    cases stored : c.value m.history with
    | none =>
      rw [stored] at load
      simp only [CallPhase.step, LocalStore.delete_of_absent load]
      exact h.look called there quiet (.absent stored)
    | some bytes =>
      have placed := h.placed_of_value stored
      rw [stored] at load
      have leads : m.tree.Leads m.store.root c.root := h.root_eq ▸ placed.leads
      have place : m.tree.locate (m.store.place c.id) = c.place :=
        leads.locate_child (h.root_eq ▸ placed.room)
      simp only [CallPhase.step, LocalStore.delete_of_present leads load, place]
      exact h.delete called there quiet stored

theorem Sound.open (h : c.Sound m) {bytes : Bytes} {n : UInt64}
    (called : c.calls[i]? = some (.save c.id bytes))
    (there : m.phases[i]? = some (.numbered c.id bytes (c.temporaryRoute n)))
    (mine : (i, .numbered n) ∈ m.history) (unwritten : ∀ q, (i, .wrote q) ∉ m.history)
    (size : Nat) : c.Sound (m.update i
      (CallPhase.step size m.store m.tree (.numbered c.id bytes (c.temporaryRoute n)))) := by
  have placed := h.placed_of_there there (fun _ => nofun) rfl
  cases first : m.tree.write (c.temporaryRoute n) [] with
  | error cause =>
    simp only [CallPhase.step, first]
    refine h.update_of_idle called there ⟨rfl, rfl, .inl rfl⟩ unwritten nofun (.inr rfl)
      (.unopened bytes _ fun q => ?_)
    rw [mem_history_update]
    simp [unwritten]
  | ok opened =>
    obtain ⟨room, clear, rfl⟩ := placed.leads.write_child_eq_ok_iff.1 first
    have place : m.tree.locate (c.temporaryRoute n) = c.temporary n :=
      placed.leads.locate_child room
    simp only [CallPhase.step, first, place]
    exact h.write called there placed mine room clear (Nat.zero_le _)

theorem Sound.write_on (h : c.Sound m) {bytes : Bytes} {n : UInt64} {written : Nat}
    (called : c.calls[i]? = some (.save c.id bytes))
    (there : m.phases[i]? =
      some (.writing c.id bytes (c.temporaryRoute n) (some (c.temporary n)) written))
    (mine : (i, .numbered n) ∈ m.history) (opened : (i, .wrote (c.temporary n)) ∈ m.history)
    (room : c.store.root.Admits (temporaryName c.id c.store.process n))
    (part : written ≤ bytes.length)
    (file : m.tree.lookup (c.temporary n) = some (.file (bytes.take written))) (size : Nat) :
    c.Sound (m.update i (CallPhase.step size m.store m.tree
      (.writing c.id bytes (c.temporaryRoute n) (some (c.temporary n)) written))) := by
  have placed := h.placed_of_there there (fun _ => nofun) rfl
  by_cases further : written < bytes.length
  · have longer : written + ((bytes.drop written).take size).length ≤ bytes.length := by
      rw [List.length_take, List.length_drop]
      omega
    simp only [CallPhase.step, if_pos further, FileTree.overwrite_file file,
      Bytes.overwrite_take bytes part]
    exact h.write called there placed mine room (by simp [file]) longer
  · rw [List.take_of_length_le (Nat.not_lt.1 further)] at file
    have clear : m.tree.lookup c.place ≠ some .directory := by
      rw [placed.there]
      cases c.value m.history <;> simp
    have moved := placed.leads.rename_child room file placed.room clear
      (LocalStore.temporaryName_ne _ _ _).symm
    have source : m.tree.locate (c.temporaryRoute n) = c.temporary n :=
      placed.leads.locate_child room
    have target : m.tree.locate (c.store.root.child c.id) = c.place :=
      placed.leads.locate_child placed.room
    rw [← temporaryRoute] at moved
    simp only [CallPhase.step, if_neg further, LocalStore.place, h.root_eq, moved, source, target]
    exact h.move called there placed mine opened file

theorem Sound.step (h : c.Sound m) (turn : Nat × Nat) : c.Sound (m.step turn) := by
  obtain ⟨i, size⟩ := turn
  cases there : m.phases[i]? with
  | none => simpa only [SharedStore.step, there] using h
  | some phase =>
    have bound : i < c.calls.length := by
      rw [← h.length]
      exact (List.getElem?_eq_some_iff.1 there).1
    have called := List.getElem?_eq_getElem bound
    have stands := h.stands i _ phase called there
    simp only [SharedStore.step, there]
    generalize c.calls[i] = call at called stands
    cases stands with
    | waiting _ quiet => exact h.answer called there quiet size
    | rooted bytes quiet => exact h.take_number called there quiet size
    | numbered bytes n mine unwritten => exact h.open called there mine unwritten size
    | writing bytes n written mine opened room part file =>
      exact h.write_on called there mine opened room part file size
    | settled => rwa [CallPhase.step, update_of_finished there]
    | unopened => rwa [CallPhase.step, update_of_finished there]

theorem Sound.run (h : c.Sound m) (schedule : List (Nat × Nat)) : c.Sound (m.run schedule) := by
  induction schedule generalizing m with
  | nil => exact h
  | cons turn rest ih => exact ih (h.step turn)

theorem sound_start (c : Setting) : c.Sound (.start c.store c.tree c.calls) := by
  have phases : (SharedStore.start c.store c.tree c.calls).phases = c.calls.map .waiting := rfl
  have clear : ∀ entry, entry ∉ (SharedStore.start c.store c.tree c.calls).history :=
    fun _ => List.not_mem_nil
  refine ⟨?_, ?_, ⟨0, ?_, ?_, ?_, ?_, ?_⟩, ?_, ?_⟩
  · rw [phases, List.length_map]
  · intro i call phase called there
    rw [phases, List.getElem?_map, called] at there
    cases there
    exact .waiting call fun _ => clear _
  · simp [SharedStore.start]
  · have saves : CallPhase.isUnnumbered ∘ CallPhase.waiting = StoreCall.isSave := rfl
    rw [phases, List.countP_map, saves, Nat.zero_add]
    exact c.few
  · exact fun _ _ taken => absurd taken (clear _)
  · exact fun _ _ _ taken => absurd taken (clear _)
  · exact fun _ _ _ taken => absurd taken (clear _)
  · exact fun _ _ written => absurd written (clear _)
  · cases stored : c.first with
    | none =>
      refine .inl ⟨stored, ⟨0, rfl⟩, ?_, fun _ among => absurd among (clear _)⟩
      intro phase among
      rw [phases] at among
      obtain ⟨call, -, rfl⟩ := List.mem_map.1 among
      exact .inl ⟨call, rfl⟩
    | some bytes =>
      have load : c.store.load c.tree c.id = found c.id (some bytes) := stored ▸ c.offers 0
      obtain ⟨p, leads⟩ := LocalStore.leads_of_load load
      obtain rfl := c.isRoot 0 p leads
      obtain ⟨valid, room, there⟩ := (LocalStore.load_eq_found_iff leads).1 load
      refine .inr ⟨leads, room, valid, ?_, 0, fun _ _ _ => rfl⟩
      change c.tree.lookup c.place = (valueAfter c.calls c.first []).map .file
      rw [stored]
      exact there

end Setting

/-- Whatever steps calls for one id take in whatever order, what they read is always whole. -/
theorem readers_see_whole_values (s : LocalStore) (t : FileTree) (id : AssetId)
    (first : Option Bytes) (calls : List StoreCall) (schedule : List (Nat × Nat))
    (offers : s.Offers t id first) (same : ∀ call ∈ calls, call.id = id)
    (few : calls.countP StoreCall.isSave ≤ 2 ^ 64) :
    let m := (start s t calls).run schedule
    let value := valueAfter calls first
    (∀ i call answer, calls[i]? = some call → m.phases[i]? = some (.finished answer) →
      (∃ before event after, m.history = before ++ (i, event) :: after ∧
        Settles id (value before) call answer event) ∨
      call.isSave = true ∧ (∃ cause, answer = .failed cause) ∧ ∀ q, (i, .wrote q) ∉ m.history) ∧
    (∀ i q, (i, .wrote q) ∈ m.history → ∃ n p, (i, .numbered n) ∈ m.history ∧
      m.tree.Leads s.root p ∧ q = p ++ [temporaryName id s.process n] ∧
      (∀ j, (j, .wrote q) ∈ m.history → j = i) ∧ ∀ q', (i, .wrote q') ∈ m.history → q' = q) ∧
    s.load m.tree id = found id (value m.history) ∧
    ((∀ phase ∈ m.phases, phase.isFinished = true) →
      ∀ i q, (i, .wrote q) ∈ m.history → m.tree.lookup q = none) ∧
    ∃ attempts, ∀ q, (∀ i, (i, .wrote q) ∉ m.history) →
      (∀ p, m.tree.Leads s.root p → q ≠ p ++ [id]) →
        m.tree.lookup q = (s.rooted^[attempts] t).lookup q := by
  intro m value
  obtain ⟨p, isRoot⟩ := s.exists_root t
  let c : Setting := ⟨s, t, id, first, calls, p, offers, same, few, isRoot⟩
  have sound : c.Sound m := c.sound_start.run schedule
  obtain ⟨taken, counted⟩ := sound.counted
  refine ⟨?_, ?_, sound.load_eq, ?_, ?_⟩
  · intro i call answer called there
    cases sound.stands i call _ called there with
    | settled _ _ before after event whole settles =>
      exact .inl ⟨before, event, after, whole, settles⟩
    | unopened bytes cause unwritten => exact .inr ⟨rfl, ⟨cause, rfl⟩, unwritten⟩
  · intro i q written
    obtain ⟨n, mine, rfl, -⟩ := sound.wrote i q written
    have placed : c.Placed m := by
      rcases sound.stage with untouched | placed
      · cases untouched.looks _ written
      · exact placed
    refine ⟨n, p, mine, placed.leads, rfl, ?_, fun q' => sound.number_of_wrote mine⟩
    intro j other
    obtain ⟨n', theirs, same, -⟩ := sound.wrote j _ other
    obtain rfl := Setting.temporary_inj same
    exact counted.distinct j i n theirs mine
  · intro ended i q written
    obtain ⟨n, -, rfl, gone | ⟨bytes, count, there⟩⟩ := sound.wrote i q written
    · exact gone
    · cases ended _ (List.mem_of_getElem? there)
  · rcases sound.stage with untouched | placed
    · obtain ⟨attempts, tree⟩ := untouched.tree
      exact ⟨attempts, fun q _ _ => by rw [tree]⟩
    · obtain ⟨attempts, frame⟩ := placed.frame
      exact ⟨attempts, fun q unwritten other => frame q (other p placed.leads) unwritten⟩

/-- Two saves whose steps mix, and a load between the steps of both. -/
theorem mixed_saves_stay_whole :
    let calls : List StoreCall := [.save "q" [2, 3], .save "q" [4], .load "q"]
    let m := (start .shelf .shelf calls).run [(0, 0), (1, 0), (1, 0), (0, 0), (0, 0), (1, 0),
      (0, 1), (1, 1), (1, 0), (2, 0), (0, 5), (0, 0)]
    m.phases = [.finished .done, .finished .done, .finished (.loaded [4])] ∧
      LocalStore.shelf.load m.tree "q" = .ok [2, 3] ∧
      m.tree.lookup ["shelf", ".q.7.0.tmp"] = none ∧
      m.tree.lookup ["shelf", ".q.7.1.tmp"] = none := by
  intro calls m
  have whole := readers_see_whole_values .shelf .shelf "q" (some [1]) calls
    [(0, 0), (1, 0), (1, 0), (0, 0), (0, 0), (1, 0), (0, 1), (1, 1), (1, 0), (2, 0), (0, 5), (0, 0)]
    (LocalStore.offers_of_load (by decide +kernel)) (by decide) (by decide)
  obtain ⟨-, -, load, clean, -⟩ := whole
  have phases : m.phases = [.finished .done, .finished .done, .finished (.loaded [4])] := by
    decide +kernel
  have ended : ∀ phase ∈ m.phases, phase.isFinished = true := by
    rw [phases]
    decide
  refine ⟨phases, load.trans ?_, clean ended 1 _ ?_, clean ended 0 _ ?_⟩
  · decide +kernel
  · decide +kernel
  · decide +kernel

/-- A directory in the place of the asset is reported as such. The root may bring one along when it is
made. -/
theorem directories_stop_readers :
    (let m := (start .shelf .shelf [.load "dir"]).run [(0, 0)]
     m.history = [(0, .looked)] ∧ m.phases = [.finished (.failed (.io .isDirectory))]) ∧
    let s : LocalStore := { root := .ofPath [] "/s/q/..", process := 7 }
    let m := (start s {} [.save "q" [1], .load "q"]).run
      [(0, 0), (0, 0), (0, 0), (0, 1), (0, 0), (0, 0), (1, 0)]
    s.load {} "q" = .error (.notFound "q") ∧
      m.history = [(0, .numbered 0), (0, .wrote ["s", ".q.7.0.tmp"]), (0, .wrote ["s", ".q.7.0.tmp"]),
        (0, .withdrawn ["s", ".q.7.0.tmp"]), (1, .looked)] ∧
      m.phases = [.finished (.failed (.writeFailed "q" .isDirectory)),
        .finished (.failed (.io .isDirectory))] := by
  refine ⟨⟨?_, ?_⟩, ?_, ?_, ?_⟩ <;> decide +kernel

end Montage.SharedStore
