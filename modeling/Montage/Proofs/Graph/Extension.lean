import Montage.Proofs.Graph.Content
import Montage.Proofs.Graph.Integrity

/-! What becomes of a graph when one more overlay is put on top. The names of pads are chosen with the
number of all steps in view, yet only the last statement is changed: it had no name for its result and
gets one, which the new overlay is drawn onto. -/
namespace Montage

theorem ImageInput.ofOverlays_concat (images : List ImageOverlay) (o : ImageOverlay) :
    ofOverlays (images ++ [o]) = ofOverlays images ++ [⟨o, images.length + 1⟩] := by
  simp [ofOverlays, List.zipIdx_append, Nat.add_comm]

namespace Filter

/-- The statement with another name for its result. What is scaled has its name already. -/
def Statement.named (p : Pad) : Statement → Statement
  | scale input output size => scale input output size
  | overlay base image position gate _ => overlay base image position gate (some p)
  | drawText base fontFile text color fontSize position gate _ =>
    drawText base fontFile text color fontSize position gate (some p)

def LastNamed (p : Pad) (ss named : List Statement) : Prop :=
  ∃ front last, ss = front ++ [last] ∧ last.outputPad = none ∧ named = front ++ [last.named p]

theorem LastNamed.append_left {p : Pad} {ss named : List Statement} (h : LastNamed p ss named)
    (below : List Statement) : LastNamed p (below ++ ss) (below ++ named) := by
  obtain ⟨front, last, rfl, unnamed, rfl⟩ := h
  exact ⟨below ++ front, last, (List.append_assoc ..).symm, unnamed, (List.append_assoc ..).symm⟩

section
variable {total i : Nat}

theorem Pad.result?_succ_of_lt (h : i + 1 < total) : result? (total + 1) i = result? total i := by
  rw [result?, result?, if_pos h, if_pos (Nat.lt_succ_of_lt h)]

theorem Pad.result?_last (h : i + 1 = total) :
    result? total i = none ∧ result? (total + 1) i = some (composite total) := by
  subst h
  exact ⟨if_neg (Nat.lt_irrefl _), if_pos (Nat.lt_succ_self _)⟩

variable {α : Type} {step : Nat → Option Pad → α → List Statement}
  {part : Nat → Nat → List α → List Statement} {xs : List α}

/-- With further steps behind them, overlays are drawn in the same way however many these are. -/
theorem DrawsEach.succ (h : DrawsEach step part) (more : i + xs.length < total) :
    part (total + 1) i xs = part total i xs := by
  induction xs generalizing i with
  | nil => rw [h.nil, h.nil]
  | cons x rest ih =>
    rw [List.length_cons] at more
    rw [h.cons, h.cons, Pad.result?_succ_of_lt (by omega), ih (by omega)]

theorem DrawsEach.lastNamed (h : DrawsEach step part)
    (named : ∀ i x p, LastNamed p (step i none x) (step i (some p) x)) (nonempty : xs ≠ [])
    (all : i + xs.length = total) :
    LastNamed (.composite total) (part total i xs) (part (total + 1) i xs) := by
  induction xs generalizing i with
  | nil => exact absurd rfl nonempty
  | cons x rest ih =>
    rw [List.length_cons] at all
    rw [h.cons, h.cons]
    cases rest with
    | nil =>
      obtain ⟨without, withName⟩ := Pad.result?_last all
      rw [h.nil, h.nil, List.append_nil, List.append_nil, without, withName]
      exact named i x (.composite total)
    | cons next rest =>
      have tail := ih (List.cons_ne_nil next rest) (i := i + 1) (by omega)
      rw [List.length_cons] at all
      rw [Pad.result?_succ_of_lt (by omega)]
      exact tail.append_left _

end

section
variable (images : List ImageInput) (letters : List Lettering)

/-- The statements as they are with one more step to follow. -/
def drawingBelow : List Statement :=
  let total := images.length + letters.length
  imagePart (total + 1) 0 images ++ textPart (total + 1) images.length letters

theorem lastNamed_drawing (drawn : 1 ≤ images.length + letters.length) :
    LastNamed (.composite (images.length + letters.length)) (drawing images letters)
      (drawingBelow images letters) := by
  unfold drawing drawingBelow
  cases letters with
  | nil =>
    have nonempty : images ≠ [] := by
      rintro rfl
      exact absurd drawn (by decide)
    simp only [textPart, List.append_nil, List.length_nil, Nat.add_zero]
    exact drawsEach_imagePart.lastNamed (fun _ _ _ => ⟨[_], _, rfl, rfl, rfl⟩) nonempty
      (Nat.zero_add _)
  | cons l rest =>
    have more : 0 + images.length < images.length + (l :: rest).length := by
      rw [List.length_cons]
      omega
    have texts := drawsEach_textPart.lastNamed (fun _ _ _ => ⟨[], _, rfl, rfl, rfl⟩)
      (List.cons_ne_nil l rest) (rfl : images.length + (l :: rest).length = _)
    simp only [drawsEach_imagePart.succ more]
    exact texts.append_left _

theorem drawing_concat_text (l : Lettering) : drawing images (letters ++ [l]) =
    drawingBelow images letters ++
      [l.statement (.before (images.length + letters.length)) none] := by
  unfold drawing drawingBelow
  simp only [List.length_append, List.length_singleton, drawsEach_textPart.append, ← Nat.add_assoc,
    List.append_assoc]
  rw [drawsEach_textPart.cons, Pad.result?_eq_none_iff.2 (Nat.le_refl _)]
  rfl

theorem drawing_concat_image (image : ImageInput) : drawing (images ++ [image]) [] =
    drawingBelow images [] ++ imageStatements image.overlay (.input (images.length + 1))
      (.scaled (images.length + 1)) (.before images.length) none := by
  unfold drawing drawingBelow
  simp only [List.length_append, List.length_singleton, drawsEach_imagePart.append, textPart,
    List.append_nil, List.length_nil, Nat.add_zero, Nat.zero_add]
  rw [drawsEach_imagePart.cons, Pad.result?_eq_none_iff.2 (Nat.le_refl _), drawsEach_imagePart.nil,
    List.append_nil]

end

theorem Statement.text_named {s : Statement} (unnamed : s.outputPad = none) (p : Pad) :
    (s.named p).text = s.text ++ p.bracketed := by
  apply String.toList_inj.1
  rw [String.toList_append, toList_text, toList_text, unnamed]
  cases s with
  | scale => cases unnamed
  | overlay => simp [named, inputPads, outputPad, padTexts, filter_overlay]
  | drawText => simp [named, inputPads, outputPad, padTexts, filter_drawText]

theorem LastNamed.text_append {p : Pad} {ss named new : List Statement} (h : LastNamed p ss named)
    (nonempty : new ≠ []) : (Graph.mk (named ++ new)).text =
      (Graph.mk ss).text ++ p.bracketed ++ ";" ++ (Graph.mk new).text := by
  obtain ⟨front, last, rfl, unnamed, rfl⟩ := h
  have texts : new.map Statement.text ≠ [] := by simpa using nonempty
  simp only [Graph.text, List.map_append, List.map_cons, List.map_nil]
  rw [String.intercalate_append_of_ne_nil (by simp) texts]
  by_cases first : front = []
  · subst first
    simp [Statement.text_named unnamed]
  · have texts : front.map Statement.text ≠ [] := by simpa using first
    rw [String.intercalate_append_of_ne_nil texts (by simp),
      String.intercalate_append_of_ne_nil texts (by simp)]
    simp [Statement.text_named unnamed, String.append_assoc]

theorem Pad.bracketed_composite (n : Nat) :
    (composite n).bracketed = "[tmp" ++ Numeral.text n ++ "]" := by
  rw [bracketed, name, ← String.append_assoc]
  rfl

theorem Pad.bracketed_scaled (n : Nat) :
    (scaled n).bracketed = "[img" ++ Numeral.text n ++ "]" := by
  rw [bracketed, name, ← String.append_assoc]
  rfl

theorem Pad.bracketed_input (n : Nat) : (input n).bracketed = "[" ++ Numeral.text n ++ ":v]" := by
  simp only [bracketed, name, String.append_assoc]
  rfl

theorem text_lettering (fontDir : String) (o : TextOverlay) (base : Pad) :
    (Graph.mk [(lettering fontDir o).statement base none]).text =
      base.bracketed ++ (o.writing fontDir).filter := by
  apply String.toList_inj.1
  rw [Graph.toList_text, String.toList_append]
  simp [Statement.toList_text, Lettering.statement, lettering, TextOverlay.writing,
    Statement.inputPads, Statement.outputPad, padTexts, Statement.filter_drawText]

theorem text_imageStatements (o : ImageOverlay) (input scaled base : Pad) :
    (Graph.mk (imageStatements o input scaled base none)).text =
      input.bracketed ++ o.scaling.filter ++ scaled.bracketed ++ ";" ++ base.bracketed ++
        scaled.bracketed ++ o.placing.filter := by
  apply String.toList_inj.1
  rw [Graph.toList_text]
  simp [imageStatements, ImageOverlay.scaling, ImageOverlay.placing, Statement.toList_text,
    Statement.inputPads, Statement.outputPad, padTexts, List.intercalate_cons_cons,
    Statement.filter_scale, Statement.filter_overlay]

theorem Pad.before_eq_composite {n : Nat} (positive : 1 ≤ n) : before n = composite n := by
  obtain ⟨m, rfl⟩ := Nat.exists_eq_add_of_le' positive
  rfl

section
variable (fontDir : String) (images : List ImageOverlay) (texts : List TextOverlay)

def drawingUnder : List Statement :=
  drawingBelow (ImageInput.ofOverlays images) (texts.map (lettering fontDir))

theorem lastNamed_drawingOf (drawn : 1 ≤ images.length + texts.length) :
    LastNamed (.composite (images.length + texts.length)) (drawingOf fontDir images texts)
      (drawingUnder fontDir images texts) := by
  have last := lastNamed_drawing (ImageInput.ofOverlays images) (texts.map (lettering fontDir))
  rw [ImageInput.length_ofOverlays, List.length_map] at last
  exact last drawn

theorem drawingOf_concat_text (t : TextOverlay) (drawn : 1 ≤ images.length + texts.length) :
    drawingOf fontDir images (texts ++ [t]) = drawingUnder fontDir images texts ++
      [(lettering fontDir t).statement (.composite (images.length + texts.length)) none] := by
  rw [drawingOf, List.map_append, List.map_singleton, drawing_concat_text,
    ImageInput.length_ofOverlays, List.length_map, Pad.before_eq_composite drawn, drawingUnder]

theorem drawingOf_concat_image (o : ImageOverlay) (drawn : 1 ≤ images.length) :
    drawingOf fontDir (images ++ [o]) [] = drawingUnder fontDir images [] ++
      imageStatements o (.input (images.length + 1)) (.scaled (images.length + 1))
        (.composite images.length) none := by
  rw [drawingOf, ImageInput.ofOverlays_concat, List.map_nil, drawing_concat_image,
    ImageInput.length_ofOverlays, Pad.before_eq_composite drawn, drawingUnder, List.map_nil]

end

theorem overlays_on_top_extend_the_graph (fontDir : String) (images : List ImageOverlay)
    (texts : List TextOverlay) (images_valid : ∀ o ∈ images, o.validate = .ok ())
    (texts_valid : ∀ o ∈ texts, o.IsLetterable fontDir)
    (drawn : 1 ≤ images.length + texts.length) :
    ∃ g, (compile fontDir (ImageInput.ofOverlays images) texts).value = .ok g ∧
      let k := images.length + texts.length
      let result := "[tmp" ++ Numeral.text k ++ "]"
      (∀ t, t.IsLetterable fontDir → ∃ h named,
        (compile fontDir (ImageInput.ofOverlays images) (texts ++ [t])).value = .ok h ∧
        LastNamed (.composite k) g.statements named ∧
        h.statements = named ++ [(lettering fontDir t).statement (.composite k) none] ∧
        h.text = g.text ++ result ++ ";" ++ result ++ (t.writing fontDir).filter) ∧
      (texts = [] → ∀ o, o.validate = .ok () → ∃ h named,
        (compile fontDir (ImageInput.ofOverlays (images ++ [o])) []).value = .ok h ∧
        LastNamed (.composite k) g.statements named ∧
        h.statements = named ++
          imageStatements o (.input (k + 1)) (.scaled (k + 1)) (.composite k) none ∧
        let input := "[" ++ Numeral.text (k + 1) ++ ":v]"
        let scaled := "[img" ++ Numeral.text (k + 1) ++ "]"
        h.text = g.text ++ result ++ ";" ++ input ++ o.scaling.filter ++ scaled ++ ";" ++ result ++
          scaled ++ o.placing.filter) := by
  refine ⟨⟨drawingOf fontDir images texts⟩, value_compile_eq_ok_iff_drawingOf.2
    ⟨images_valid, texts_valid, rfl⟩, ?_, ?_⟩
  · intro t letterable
    have last := lastNamed_drawingOf fontDir images texts drawn
    have statements := drawingOf_concat_text fontDir images texts t drawn
    have valid : ∀ o ∈ texts ++ [t], o.IsLetterable fontDir :=
      List.forall_mem_append.2 ⟨texts_valid, List.forall_mem_singleton.2 letterable⟩
    refine ⟨_, _, value_compile_eq_ok_iff_drawingOf.2 ⟨images_valid, valid, rfl⟩, last,
      statements, ?_⟩
    rw [statements, last.text_append (List.cons_ne_nil _ _), text_lettering]
    simp only [Pad.bracketed_composite, String.append_assoc]
  · rintro rfl o valid
    have last := lastNamed_drawingOf fontDir images [] drawn
    have statements := drawingOf_concat_image fontDir images o drawn
    have images_valid : ∀ i ∈ images ++ [o], i.validate = .ok () :=
      List.forall_mem_append.2 ⟨images_valid, List.forall_mem_singleton.2 valid⟩
    refine ⟨_, _, value_compile_eq_ok_iff_drawingOf.2 ⟨images_valid, texts_valid, rfl⟩, last,
      statements, ?_⟩
    have nonempty : imageStatements o (.input (images.length + 1)) (.scaled (images.length + 1))
        (.composite images.length) none ≠ [] := List.cons_ne_nil _ _
    rw [statements, last.text_append nonempty, text_imageStatements]
    simp only [Pad.bracketed_composite, Pad.bracketed_scaled, Pad.bracketed_input, List.length_nil,
      Nat.add_zero, String.append_assoc]

theorem photo_and_caption_are_drawn_onto :
    (∃ g h, (compile "/f" (ImageInput.ofOverlays [.photo]) [.caption]).value = .ok g ∧
      (compile "/f" (ImageInput.ofOverlays [.photo]) [.caption, .caption]).value = .ok h ∧
      h.text = g.text ++ "[tmp2]" ++ ";" ++ "[tmp2]" ++ (TextOverlay.caption.writing "/f").filter) ∧
    ∃ g h, (compile "/f" (ImageInput.ofOverlays [.photo]) []).value = .ok g ∧
      (compile "/f" (ImageInput.ofOverlays [.photo, .photo]) []).value = .ok h ∧
      h.text = g.text ++ "[tmp1]" ++ ";" ++ "[2:v]" ++ "scale=30:40" ++ "[img2]" ++ ";" ++ "[tmp1]" ++
        "[img2]" ++ "overlay=x=1:y=2:enable='between(t,0,5)'" := by
  have photo : ∀ o ∈ [ImageOverlay.photo], o.validate = .ok () :=
    List.forall_mem_singleton.2 ImageOverlay.validate_photo
  have caption : ∀ o ∈ [TextOverlay.caption], o.IsLetterable "/f" :=
    List.forall_mem_singleton.2 TextOverlay.isLetterable_caption
  have lettered : ∀ o ∈ ([] : List TextOverlay), o.IsLetterable "/f" :=
    fun _ found => absurd found List.not_mem_nil
  constructor
  · obtain ⟨g, below, more, -⟩ := overlays_on_top_extend_the_graph "/f" [.photo] [.caption] photo
      caption (by decide)
    obtain ⟨h, -, above, -, -, text⟩ := more .caption TextOverlay.isLetterable_caption
    have result : "[tmp" ++ Numeral.text ([ImageOverlay.photo].length +
        [TextOverlay.caption].length) ++ "]" = "[tmp2]" := by decide +kernel
    rw [result] at text
    exact ⟨g, h, below, above, text⟩
  · obtain ⟨g, below, -, more⟩ := overlays_on_top_extend_the_graph "/f" [.photo] [] photo lettered
      (by decide)
    obtain ⟨h, -, above, -, -, text⟩ := more rfl .photo ImageOverlay.validate_photo
    have scaling : ImageOverlay.photo.scaling.filter = "scale=30:40" := by decide +kernel
    have placing : ImageOverlay.photo.placing.filter =
        "overlay=x=1:y=2:enable='between(t,0,5)'" := by decide +kernel
    have pads : "[tmp" ++ Numeral.text 1 ++ "]" = "[tmp1]" ∧ "[" ++ Numeral.text 2 ++ ":v]" = "[2:v]" ∧
        "[img" ++ Numeral.text 2 ++ "]" = "[img2]" := by decide +kernel
    simp only [List.length_singleton, List.length_nil, Nat.add_zero, Nat.reduceAdd, pads] at text
    rw [scaling, placing] at text
    exact ⟨g, h, below, above, text⟩

end Filter
end Montage
