import Montage.Proofs.Graph.Drawing
import Montage.Proofs.Graph.Lettering

/-! The graph of overlays that pass their checks, written down from the overlays alone. -/
namespace Montage

namespace ImageInput

theorem forall_mem_ofOverlays_iff {images : List ImageOverlay} {p : ImageOverlay → Prop} :
    (∀ i ∈ ofOverlays images, p i.overlay) ↔ ∀ o ∈ images, p o := by
  conv_rhs => rw [← map_overlay_ofOverlays images]
  exact List.forall_mem_map.symm

end ImageInput

/-! What an overlay contributes to a graph wherever it is drawn: its statements without pads. -/

def ImageOverlay.scaling (o : ImageOverlay) : Filter.Statement := .scale .source .source o.size

def ImageOverlay.placing (o : ImageOverlay) : Filter.Statement :=
  .overlay .source .source o.position ⟨o.visibleFrom, o.visibleUntil⟩ none

def TextOverlay.writing (fontDir : String) (o : TextOverlay) : Filter.Statement :=
  .drawText .source (Filter.fontFile fontDir o.fontFamily) (Filter.escaped o.text) o.color o.fontSize
    o.position ⟨o.visibleFrom, o.visibleUntil⟩ none

namespace Filter

variable {fontDir : String} {images : List ImageOverlay} {texts : List TextOverlay}

theorem forall₂_letter_iff {letters : List Lettering} :
    List.Forall₂ (fun o l => letter fontDir o = .ok l) texts letters ↔
      (∀ o ∈ texts, o.IsLetterable fontDir) ∧ letters = texts.map (lettering fontDir) := by
  induction texts generalizing letters with
  | nil => simp
  | cons o rest ih =>
    rw [List.forall₂_cons_left_iff, List.forall_mem_cons, List.map_cons]
    constructor
    · rintro ⟨l, others, lettered, rest_lettered, rfl⟩
      obtain ⟨letterable, rfl⟩ := letter_eq_ok_iff_lettering.1 lettered
      obtain ⟨all, rfl⟩ := ih.1 rest_lettered
      exact ⟨⟨letterable, all⟩, rfl⟩
    · rintro ⟨⟨letterable, all⟩, rfl⟩
      exact ⟨_, _, letter_eq_ok_iff_lettering.2 ⟨letterable, rfl⟩, ih.2 ⟨all, rfl⟩, rfl⟩

def drawingOf (fontDir : String) (images : List ImageOverlay) (texts : List TextOverlay) :
    List Statement :=
  drawing (ImageInput.ofOverlays images) (texts.map (lettering fontDir))

theorem value_compile_eq_ok_iff_drawingOf {g : Graph} :
    (compile fontDir (ImageInput.ofOverlays images) texts).value = .ok g ↔
      (∀ o ∈ images, o.validate = .ok ()) ∧ (∀ o ∈ texts, o.IsLetterable fontDir) ∧
        g = ⟨drawingOf fontDir images texts⟩ := by
  rw [value_compile_eq_ok_iff, graphOf_eq_ok_iff]
  rw [ImageInput.forall_mem_ofOverlays_iff (p := fun o => o.validate = .ok ())]
  simp only [forall₂_letter_iff]
  refine and_congr_right fun _ => ?_
  constructor
  · rintro ⟨letters, ⟨letterable, rfl⟩, statements⟩
    exact ⟨letterable, congrArg Graph.mk statements⟩
  · rintro ⟨letterable, rfl⟩
    exact ⟨_, ⟨letterable, rfl⟩, rfl⟩

end Filter

theorem ImageOverlay.validate_photo : photo.validate = .ok () := by decide +kernel

theorem TextOverlay.isLetterable_of_isSome {fontDir : String} {o : TextOverlay}
    (h : (Filter.letter fontDir o).toOption.isSome = true) : o.IsLetterable fontDir := by
  obtain ⟨l, lettered⟩ := exists_eq_ok_of_isSome h
  exact (Filter.letter_eq_ok_iff_lettering.1 lettered).1

theorem TextOverlay.isLetterable_caption : caption.IsLetterable "/f" :=
  isLetterable_of_isSome (by decide +kernel)

end Montage
