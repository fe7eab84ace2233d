import Montage.Proofs.FileTree.Directories
import Montage.Store.Interleaving

/-! A call that no other disturbs. Its steps come to what the whole call comes to. -/
namespace Montage
namespace CallPhase
open Store (checkKey)

/-- What a call comes to if no other takes a step. -/
inductive Ends : LocalStore → FileTree → CallPhase → (LocalStore × FileTree) × StoreAnswer → Prop
  | here (s : LocalStore) (t : FileTree) (answer : StoreAnswer) :
      Ends s t (.finished answer) ((s, t), answer)
  | step {s : LocalStore} {t : FileTree} {phase : CallPhase} {outcome} (size : Nat)
      (rest : Ends (phase.step size s t).store (phase.step size s t).tree
        (phase.step size s t).phase outcome) : Ends s t phase outcome

theorem Ends.run {s : LocalStore} {t : FileTree} {phase : CallPhase} {outcome}
    (h : Ends s t phase outcome) (history : List (Nat × StoreEvent)) :
    ∃ schedule later, (⟨s, t, [phase], history⟩ : SharedStore).run schedule =
      ⟨outcome.1.1, outcome.1.2, [.finished outcome.2], later⟩ := by
  induction h generalizing history with
  | here s t answer => exact ⟨[], history, rfl⟩
  | step size rest ih =>
    obtain ⟨schedule, later, whole⟩ := ih _
    exact ⟨(0, size) :: schedule, later, whole⟩

variable {s : LocalStore} {t : FileTree} {key : String} {bytes : Bytes} {temporary : Route}

theorem ends_written {left : FileTree} {result : Except IoError Unit}
    (moved : LocalStore.moveIntoPlace t temporary (s.place key) none = (left, result))
    (file : Option Location) : Ends s t (.writing key bytes temporary file bytes.length)
      ((s, left), .of (fun () => .done) (result.mapError (.writeFailed key))) := by
  refine .step 0 ?_
  simp only [CallPhase.step, if_neg (Nat.lt_irrefl _)]
  simp only [LocalStore.moveIntoPlace] at moved
  cases renamed : t.rename temporary (s.place key) with
  | ok after =>
    rw [renamed] at moved
    cases moved
    exact .here s _ _
  | error e =>
    rw [renamed] at moved
    refine .step 0 ?_
    simp only [CallPhase.step]
    cases removed : t.remove temporary with
    | ok after =>
      rw [removed] at moved
      cases moved
      exact .here s _ _
    | error =>
      rw [removed] at moved
      cases moved
      exact .here s _ _

theorem ends_opened {p : Location} (nonempty : p ≠ []) {outcome}
    (h : Ends s (t.put p (.file bytes)) (.writing key bytes temporary (.some p) bytes.length)
      outcome) :
    Ends s (t.put p (.file [])) (.writing key bytes temporary (.some p) 0) outcome := by
  by_cases empty : bytes = []
  · subst empty
    exact h
  · refine .step bytes.length ?_
    have longer : 0 < bytes.length := List.length_pos_iff.2 empty
    have opened : (t.put p (.file [])).lookup p = some (.file []) :=
      FileTree.lookup_put_self nonempty
    simp only [CallPhase.step, if_pos longer, List.drop_zero, List.take_length, Nat.zero_add,
      FileTree.overwrite, opened, FileTree.put_put]
    simpa [Bytes.overwrite] using h

/-- A save that nothing disturbs does step by step what it does as a whole. -/
theorem ends_save (s : LocalStore) (t : FileTree) (id : AssetId) (bytes : Bytes) :
    Ends s t (.waiting (.save id bytes)) (LocalStore.answer (s, t) (.save id bytes)) := by
  simp only [LocalStore.answer, LocalStore.save, LocalStore.saveUnder, LocalStore.makeRoot]
  refine .step 0 ?_
  cases valid : checkKey id with
  | error e =>
    simp only [CallPhase.step, valid]
    exact .here s t _
  | ok key =>
    cases made : t.makeDirectories s.root with | mk grown result =>
    cases result with
    | error e =>
      simp only [CallPhase.step, valid, made]
      exact .here s grown _
    | ok =>
      simp only [CallPhase.step, valid, made]
      refine .step 0 (.step 0 ?_)
      rcases grown.write_cases (s.temporaryPlace key) with ⟨e, blocked⟩ | ⟨p, clear, here, writes⟩
      · simp only [CallPhase.step, LocalStore.writeTemporary, blocked]
        exact .here _ grown _
      · have nonempty := FileTree.ne_nil_of_lookup clear
        simp only [CallPhase.step, LocalStore.writeTemporary, (writes _).1, here]
        cases moved : LocalStore.moveIntoPlace (grown.put p (.file bytes)) (s.temporaryPlace key)
          (s.place key) none with | mk left result =>
        let next : LocalStore := { s with sequence := s.sequence + 1 }
        have rest : LocalStore.moveIntoPlace (grown.put p (.file bytes)) (s.temporaryPlace key)
            (next.place key) none = (left, result) := moved
        cases result <;> exact ends_opened nonempty (ends_written rest (some p))

/-- Every call that nothing disturbs does step by step what it does as a whole. -/
theorem ends (s : LocalStore) (t : FileTree) (call : StoreCall) :
    Ends s t (.waiting call) (LocalStore.answer (s, t) call) := by
  cases call with
  | save id bytes => exact ends_save s t id bytes
  | load id => exact .step 0 (.here s t _)
  | contains id => exact .step 0 (.here s t _)
  | delete id =>
    refine .step 0 ?_
    simp only [CallPhase.step, LocalStore.answer]
    cases deleted : s.delete t id with | mk left result =>
    cases result <;> exact .here s left _

end CallPhase

theorem SharedStore.run_alone (s : LocalStore) (t : FileTree) (call : StoreCall) :
    let (state, answer) := LocalStore.answer (s, t) call
    ∃ schedule later, (SharedStore.start s t [call]).run schedule =
      ⟨state.1, state.2, [.finished answer], later⟩ :=
  (CallPhase.ends s t call).run []

end Montage
