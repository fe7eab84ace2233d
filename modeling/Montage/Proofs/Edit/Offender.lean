import Montage.Proofs.Check
import Montage.Proofs.Edit

/-! Which problem of an edit is reported. A layer is at fault if one of its fields is, or if its id is that
of a layer below it; the edit is refused for the lowest layer at fault. The fields are said here once
more as they are meant, with the order of the numbers, where the checks ask for what must not be. -/
namespace Montage

def TrimRange.IsForward (t : TrimRange) : Prop :=
  t.start.isFinite = true ∧ t.stop.isFinite = true ∧ Binary64.le 0 t.start = true ∧
    t.start.lt t.stop = true

def Position.InFrame (p : Position) : Prop :=
  p.x.isFinite = true ∧ p.y.isFinite = true ∧ Binary64.le 0 p.x = true ∧ Binary64.le 0 p.y = true

def Size.IsBox (s : Size) : Prop :=
  s.width.isFinite = true ∧ s.height.isFinite = true ∧ Binary64.lt 0 s.width = true ∧
    Binary64.lt 0 s.height = true

def Overlay.IsWindow (start stop : Binary64) : Prop :=
  start.isFinite = true ∧ stop.isFinite = true ∧ start.lt stop = true

instance (t : TrimRange) : Decidable t.IsForward := inferInstanceAs (Decidable (_ ∧ _))
instance (p : Position) : Decidable p.InFrame := inferInstanceAs (Decidable (_ ∧ _))
instance (s : Size) : Decidable s.IsBox := inferInstanceAs (Decidable (_ ∧ _))
instance (start stop : Binary64) : Decidable (Overlay.IsWindow start stop) :=
  inferInstanceAs (Decidable (_ ∧ _))

def Overlay.boxChecks (id : OverlayId) (p : Position) (s : Size) (start stop : Binary64) :
    List (Except EditError Unit) :=
  [require p.InFrame (.invalidPosition id p.x p.y),
    require s.IsBox (.invalidSize id s.width s.height),
    require (Overlay.IsWindow start stop) (.invalidVisibility id start stop)]

inductive Layer where
  | image (o : ImageOverlay)
  | text (o : TextOverlay)

namespace Layer

def id : Layer → OverlayId
  | image o => o.id
  | text o => o.id

def validate : Layer → Except EditError Unit
  | image o => o.validate
  | text o => o.validate

def fieldChecks : Layer → List (Except EditError Unit)
  | image o => Overlay.boxChecks o.id o.position o.size o.visibleFrom o.visibleUntil
  | text o => require (o.fontSize ≠ 0) (.zeroFontSize o.id) ::
      Overlay.boxChecks o.id o.position o.size o.visibleFrom o.visibleUntil

def checksAbove (below : List Layer) (l : Layer) : List (Except EditError Unit) :=
  l.fieldChecks ++ [require (l.id ∉ below.map id) (.duplicateOverlay l.id)]

end Layer

/-- The layers from below: images, and texts over them. -/
def Edit.layers (e : Edit) : List Layer := e.images.map .image ++ e.texts.map .text

theorem TrimRange.refusal_iff (t : TrimRange) : (!(t.start.isFinite && t.stop.isFinite) ||
    t.start.lt 0 || t.stop.le t.start) = false ↔ t.IsForward := by
  simp only [Bool.or_eq_false_iff, Bool.not_eq_false', Bool.and_eq_true, and_assoc]
  refine and_congr_right fun start => and_congr_right fun stop => and_congr ?_ ?_
  · exact Binary64.lt_eq_false_iff_le start Binary64.zero_isFinite
  · exact Binary64.le_eq_false_iff_lt stop start

theorem Position.refusal_iff (p : Position) :
    (!(p.x.isFinite && p.y.isFinite) || p.x.lt 0 || p.y.lt 0) = false ↔ p.InFrame := by
  simp only [Bool.or_eq_false_iff, Bool.not_eq_false', Bool.and_eq_true, and_assoc]
  refine and_congr_right fun x => and_congr_right fun y => and_congr ?_ ?_
  · exact Binary64.lt_eq_false_iff_le x Binary64.zero_isFinite
  · exact Binary64.lt_eq_false_iff_le y Binary64.zero_isFinite

theorem Size.refusal_iff (s : Size) : (!(s.width.isFinite && s.height.isFinite) ||
    s.width.le 0 || s.height.le 0) = false ↔ s.IsBox := by
  simp only [Bool.or_eq_false_iff, Bool.not_eq_false', Bool.and_eq_true, and_assoc]
  refine and_congr_right fun width => and_congr_right fun height => and_congr ?_ ?_
  · exact Binary64.le_eq_false_iff_lt width Binary64.zero_isFinite
  · exact Binary64.le_eq_false_iff_lt height Binary64.zero_isFinite

theorem Overlay.refusal_iff (start stop : Binary64) :
    (!(start.isFinite && stop.isFinite) || stop.le start) = false ↔
      Overlay.IsWindow start stop := by
  simp only [Bool.or_eq_false_iff, Bool.not_eq_false', Bool.and_eq_true, and_assoc]
  refine and_congr_right fun finite_start => and_congr_right fun finite_stop => ?_
  exact Binary64.le_eq_false_iff_lt finite_stop finite_start

theorem ite_of_refusal {α : Type} {refused : Bool} {condition : Prop} [Decidable condition]
    (h : refused = false ↔ condition) (a b : α) :
    (if refused then a else b) = if condition then b else a := by
  cases refused <;> simp_all

theorem TrimRange.validate_eq (t : TrimRange) :
    t.validate = require t.IsForward (.invalidTrim t.start t.stop) := by
  unfold validate require
  exact ite_of_refusal t.refusal_iff _ _

theorem Overlay.checkGeometry_eq (id : OverlayId) (p : Position) (s : Size) :
    Overlay.checkGeometry id p s = inOrder [require p.InFrame (.invalidPosition id p.x p.y),
      require s.IsBox (.invalidSize id s.width s.height)] := by
  rw [inOrder_require_cons, inOrder_require_cons, checkGeometry, ite_of_refusal p.refusal_iff,
    ite_of_refusal s.refusal_iff]
  rfl

theorem Overlay.checkWindow_eq (id : OverlayId) (start stop : Binary64) :
    Overlay.checkWindow id start stop =
      inOrder [require (Overlay.IsWindow start stop) (.invalidVisibility id start stop)] := by
  rw [inOrder_require_cons, checkWindow, ite_of_refusal (Overlay.refusal_iff start stop)]
  rfl

theorem Overlay.inOrder_boxChecks (id : OverlayId) (p : Position) (s : Size)
    (start stop : Binary64) : inOrder (boxChecks id p s start stop) =
      (checkGeometry id p s >>= fun _ => checkWindow id start stop) := by
  rw [checkGeometry_eq, checkWindow_eq, ← inOrder_append]
  rfl

theorem Layer.validate_eq (l : Layer) : l.validate = inOrder l.fieldChecks := by
  cases l with
  | image o =>
    rw [fieldChecks, Overlay.inOrder_boxChecks]
    rfl
  | text o =>
    rw [fieldChecks, inOrder_require_cons, Overlay.inOrder_boxChecks, validate,
      TextOverlay.validate]
    exact (ite_not (o.fontSize = 0) _ _).symm

theorem Layer.failsFirst_checksAbove_iff {l : Layer} {below : List Layer} {err : EditError} :
    FailsFirst (l.checksAbove below) err ↔ l.validate = .error err ∨
      l.validate = .ok () ∧ l.id ∈ below.map id ∧ err = .duplicateOverlay l.id := by
  rw [checksAbove, failsFirst_append_iff, ← inOrder_eq_error_iff, ← inOrder_eq_ok_iff,
    ← validate_eq, failsFirst_cons_iff, require_eq_error_iff, not_not]
  simp [not_failsFirst_nil]

namespace Edit

def layerChecks (layers : List Layer) : List (OverlayId × Except EditError Unit) :=
  layers.map fun l => (l.id, l.validate)

theorem checks_eq (e : Edit) : e.checks = layerChecks e.layers := by
  simp [checks, layerChecks, layers, Function.comp_def, Layer.id, Layer.validate]

/-- The ids that were seen are those of the layers below, in whatever order they are kept. -/
theorem checkOverlays_eq_error_iff {seen : List OverlayId} {list : List Layer} {err : EditError} :
    checkOverlays seen (layerChecks list) = .error err ↔
      ∃ below l above, list = below ++ l :: above ∧ checkOverlays seen (layerChecks below) = .ok () ∧
        (l.validate = .error err ∨ l.validate = .ok () ∧ (l.id ∈ seen ∨ l.id ∈ below.map Layer.id) ∧
          err = .duplicateOverlay l.id) := by
  induction list generalizing seen with
  | nil => simp [layerChecks, checkOverlays]
  | cons first rest ih =>
    rw [layerChecks, List.map_cons, checkOverlays_cons_eq_error_iff, ← layerChecks]
    constructor
    · rintro (failed | ⟨passed, ⟨old, rfl⟩ | ⟨fresh, later⟩⟩)
      · exact ⟨[], first, rest, rfl, rfl, .inl failed⟩
      · exact ⟨[], first, rest, rfl, rfl, .inr ⟨passed, .inl old, rfl⟩⟩
      · obtain ⟨below, l, above, rfl, good, fault⟩ := ih.1 later
        refine ⟨first :: below, l, above, rfl, ?_, ?_⟩
        · exact checkOverlays_cons_eq_ok_iff.2 ⟨passed, fresh, good⟩
        · simpa [or_assoc, or_left_comm] using fault
    · rintro ⟨below, l, above, parts, good, fault⟩
      cases below with
      | nil =>
        cases parts
        refine fault.imp_right ?_
        rintro ⟨valid, again, rfl⟩
        exact ⟨valid, .inl ⟨by simpa using again, rfl⟩⟩
      | cons _ below =>
        cases parts
        obtain ⟨passed, fresh, good⟩ := checkOverlays_cons_eq_ok_iff.1 good
        refine .inr ⟨passed, .inr ⟨fresh, ih.2 ⟨below, l, above, rfl, good, ?_⟩⟩⟩
        simpa [or_assoc, or_left_comm] using fault

/-- Layers are passed if they are valid and no two of them have one id. -/
theorem checkOverlays_eq_ok_iff_nodup {list : List Layer} :
    checkOverlays [] (layerChecks list) = .ok () ↔
      (∀ l ∈ list, l.validate = .ok ()) ∧ (list.map Layer.id).Nodup := by
  rw [checkOverlays_eq_ok_iff]
  simp [layerChecks, Function.comp_def]

theorem forall_mem_layers_iff {e : Edit} {p : Layer → Prop} :
    (∀ l ∈ e.layers, p l) ↔ (∀ o ∈ e.images, p (.image o)) ∧ ∀ o ∈ e.texts, p (.text o) := by
  rw [layers, List.forall_mem_append, List.forall_mem_map, List.forall_mem_map]

end Edit

theorem edits_report_their_first_offender (e : Edit) :
    (e.validate = .ok () ↔ e.trim.IsForward ∧ (∀ o ∈ e.images, o.validate = .ok ()) ∧
      (∀ o ∈ e.texts, o.validate = .ok ()) ∧ (e.layers.map Layer.id).Nodup) ∧
    ∀ err, e.validate = .error err ↔
      ¬ e.trim.IsForward ∧ err = .invalidTrim e.trim.start e.trim.stop ∨
      e.trim.IsForward ∧ ∃ below l above, e.layers = below ++ l :: above ∧
        (∀ b ∈ below, b.validate = .ok ()) ∧ (below.map Layer.id).Nodup ∧
          FailsFirst (l.checksAbove below) err := by
  refine ⟨?_, fun err => ?_⟩
  · rw [Edit.validate, check_bind_eq_ok_iff, TrimRange.validate_eq, require_eq_ok_iff,
      Edit.checks_eq, Edit.checkOverlays_eq_ok_iff_nodup, Edit.forall_mem_layers_iff, and_assoc]
    rfl
  · rw [Edit.validate, check_bind_eq_error_iff, TrimRange.validate_eq, require_eq_error_iff,
      require_eq_ok_iff, Edit.checks_eq, Edit.checkOverlays_eq_error_iff]
    simp only [Edit.checkOverlays_eq_ok_iff_nodup, Layer.failsFirst_checksAbove_iff,
      List.not_mem_nil, false_or, and_assoc]

end Montage
