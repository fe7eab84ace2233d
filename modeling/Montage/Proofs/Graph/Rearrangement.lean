import Mathlib.Data.List.Perm.Basic
import Montage.Proofs.Graph.Chain
import Montage.Proofs.Graph.Content
import Montage.Proofs.Graph.Options

/-! What the order of overlays decides. A statement takes its pads from its place in the graph and
everything else from its overlay, so overlays in another order are the same statements joined by
the same pads. -/
namespace Montage

section
variable {α β : Type} {places : List Nat} {xs ys : List α}

structure Rearranges (places : List Nat) (xs ys : List α) : Prop where
  once : places.Perm (List.range xs.length)
  taken : ys.map some = places.map fun place => xs[place]?

theorem Rearranges.map (h : Rearranges places xs ys) (f : α → β) :
    Rearranges places (xs.map f) (ys.map f) := by
  refine ⟨?_, ?_⟩
  · rw [List.length_map]
    exact h.once
  · have taken := congrArg (List.map (Option.map f)) h.taken
    simpa [Function.comp_def] using taken

theorem map_getElem?_range (xs : List α) :
    (List.range xs.length).map (fun place => xs[place]?) = xs.map some := by
  apply List.ext_getElem
  · simp
  · intro i among _
    simp

theorem exists_rearranges (h : xs.Perm ys) : ∃ places, Rearranges places xs ys := by
  have same : (ys.map some).Perm ((List.range xs.length).map fun place => xs[place]?) := by
    rw [map_getElem?_range]
    exact h.symm.map some
  have factored := List.eq_map_comp_perm fun place : Nat => xs[place]?
  obtain ⟨places, taken, once⟩ := (congrFun (congrFun factored _) _).mpr same
  exact ⟨places, once, taken⟩

/-- The first two lists are rearrangements, and every one of these is one of the other two as well. -/
def MoveAlike (xs ys : List α) (as bs : List β) : Prop :=
  (∃ places, Rearranges places xs ys) ∧
    ∀ places, Rearranges places xs ys → Rearranges places as bs

theorem moveAlike_map (h : xs.Perm ys) (f : α → β) : MoveAlike xs ys (xs.map f) (ys.map f) :=
  ⟨exists_rearranges h, fun _ moved => moved.map f⟩

end

namespace Filter

namespace Statement

def erased : Statement → Statement
  | scale _ _ size => scale .source .source size
  | overlay _ _ position gate _ => overlay .source .source position gate none
  | drawText _ fontFile text color fontSize position gate _ =>
    drawText .source fontFile text color fontSize position gate none

def pads (s : Statement) : List Pad × Option Pad := (s.inputPads, s.outputPad)

def isOverlay : Statement → Bool
  | overlay .. => true
  | _ => false

end Statement

def Graph.contents (kind : Statement → Bool) (g : Graph) : List Statement :=
  (g.statements.map Statement.erased).filter kind

namespace DrawsEach

variable {α β : Type} {step : Nat → Option Pad → α → List Statement}
  {part : Nat → Nat → List α → List Statement} {f : Statement → β}

/-- What the place of a step does not change follows the overlays. -/
theorem map_eq_flatMap (h : DrawsEach step part) {g : α → List β}
    (each : ∀ i output x, (step i output x).map f = g x) (total i : Nat) (xs : List α) :
    (part total i xs).map f = xs.flatMap g := by
  induction xs generalizing i with
  | nil => rw [h.nil, List.map_nil, List.flatMap_nil]
  | cons x rest ih => rw [h.cons, List.map_append, each, ih, List.flatMap_cons]

/-- What the overlay of a step does not change follows the places. -/
theorem map_eq_flatMap_range (h : DrawsEach step part) {g : Nat → Option Pad → List β}
    (each : ∀ i output x, (step i output x).map f = g i output) (total i : Nat) (xs : List α) :
    (part total i xs).map f =
      (List.range' i xs.length).flatMap fun k => g k (Pad.result? total k) := by
  induction xs generalizing i with
  | nil => rw [h.nil, List.map_nil, List.length_nil, List.range'_zero, List.flatMap_nil]
  | cons x rest ih =>
    rw [h.cons, List.map_append, each, ih, List.length_cons, List.range'_succ, List.flatMap_cons]

theorem forall_mem (h : DrawsEach step part) {p : Statement → Prop}
    (each : ∀ i output x, ∀ s ∈ step i output x, p s) (total i : Nat) (xs : List α) :
    ∀ s ∈ part total i xs, p s := by
  induction xs generalizing i with
  | nil =>
    rw [h.nil]
    exact fun _ among => absurd among List.not_mem_nil
  | cons x rest ih =>
    rw [h.cons]
    exact List.forall_mem_append.2 ⟨each i _ x, ih (i + 1)⟩

end DrawsEach

section
variable {images others : List ImageInput} {letters lines : List Lettering}

theorem pads_drawing (same_images : images.length = others.length)
    (same_texts : letters.length = lines.length) :
    (drawing images letters).map Statement.pads = (drawing others lines).map Statement.pads := by
  have imagePads := drawsEach_imagePart.map_eq_flatMap_range (f := Statement.pads)
    (g := fun k output => [([.input (k + 1)], some (.scaled (k + 1))),
      ([.before k, .scaled (k + 1)], output)]) fun _ _ _ => rfl
  have textPads := drawsEach_textPart.map_eq_flatMap_range (f := Statement.pads)
    (g := fun k output => [([.before k], output)]) fun _ _ _ => rfl
  simp only [drawing, List.map_append, imagePads, textPads, same_images, same_texts]

theorem not_isDrawText_imagePart (total i : Nat) (images : List ImageInput) :
    ∀ s ∈ imagePart total i images, s.isDrawText = false :=
  drawsEach_imagePart.forall_mem (fun _ _ _ => by simp [imageStatements, Statement.isDrawText])
    total i images

theorem isDrawText_textPart (total i : Nat) (letters : List Lettering) :
    ∀ s ∈ textPart total i letters, s.isDrawText = true :=
  drawsEach_textPart.forall_mem (fun _ _ _ => List.forall_mem_singleton.2 rfl) total i letters

theorem filter_isDrawText_drawing (images : List ImageInput) (letters : List Lettering) :
    (drawing images letters).filter Statement.isDrawText =
      textPart (images.length + letters.length) images.length letters := by
  rw [drawing, List.filter_append, List.filter_eq_nil_iff.2, List.nil_append]
  · exact List.filter_eq_self.2 (isDrawText_textPart _ _ letters)
  · intro s among
    rw [not_isDrawText_imagePart _ _ images s among]
    exact Bool.false_ne_true

theorem filter_not_isDrawText_drawing (images : List ImageInput) (letters : List Lettering) :
    (drawing images letters).filter (fun s => !s.isDrawText) =
      imagePart (images.length + letters.length) 0 images := by
  rw [drawing, List.filter_append, List.filter_eq_self.2, List.filter_eq_nil_iff.2, List.append_nil]
  · intro s among
    rw [isDrawText_textPart _ _ letters s among]
    exact Bool.false_ne_true
  · intro s among
    rw [not_isDrawText_imagePart _ _ images s among]
    rfl

end

section
variable (fontDir : String) (images others : List ImageOverlay) (texts lines : List TextOverlay)

theorem erased_drawingOf : (drawingOf fontDir images texts).map Statement.erased =
    (images.flatMap fun o => [o.scaling, o.placing]) ++ texts.map (TextOverlay.writing fontDir) := by
  have imageParts := drawsEach_imagePart.map_eq_flatMap (f := Statement.erased)
    (g := fun image => [image.overlay.scaling, image.overlay.placing]) fun _ _ _ => rfl
  have textParts := drawsEach_textPart.map_eq_flatMap (f := Statement.erased)
    (g := fun l => [l.statement .source none]) fun _ _ _ => rfl
  rw [drawingOf, drawing, List.map_append, imageParts, textParts, List.flatMap_map,
    ← List.map_eq_flatMap]
  congr 1
  conv_rhs => rw [← ImageInput.map_overlay_ofOverlays images, List.flatMap_map]

theorem contents_drawingOf (kind : Statement → Bool) :
    Graph.contents kind ⟨drawingOf fontDir images texts⟩ =
      (images.flatMap fun o => [o.scaling, o.placing].filter kind) ++
        (texts.map (TextOverlay.writing fontDir)).filter kind := by
  rw [Graph.contents, erased_drawingOf, List.filter_append, List.filter_flatMap]

theorem contents_isScale : Graph.contents Statement.isScale ⟨drawingOf fontDir images texts⟩ =
    images.map ImageOverlay.scaling := by
  have kind : ∀ o : ImageOverlay, [o.scaling, o.placing].filter Statement.isScale = [o.scaling] :=
    fun _ => rfl
  rw [contents_drawingOf, List.map_eq_flatMap (f := ImageOverlay.scaling)]
  simp [kind, TextOverlay.writing, Statement.isScale]

theorem contents_isOverlay : Graph.contents Statement.isOverlay ⟨drawingOf fontDir images texts⟩ =
    images.map ImageOverlay.placing := by
  have kind : ∀ o : ImageOverlay, [o.scaling, o.placing].filter Statement.isOverlay = [o.placing] :=
    fun _ => rfl
  rw [contents_drawingOf, List.map_eq_flatMap (f := ImageOverlay.placing)]
  simp [kind, TextOverlay.writing, Statement.isOverlay]

theorem contents_isDrawText : Graph.contents Statement.isDrawText ⟨drawingOf fontDir images texts⟩ =
    texts.map (TextOverlay.writing fontDir) := by
  have kind : ∀ o : ImageOverlay, [o.scaling, o.placing].filter Statement.isDrawText = [] :=
    fun _ => rfl
  have all : ∀ s ∈ texts.map (TextOverlay.writing fontDir), s.isDrawText = true :=
    List.forall_mem_map.2 fun _ _ => rfl
  rw [contents_drawingOf, List.filter_eq_self.2 all]
  simp [kind]

variable {images others texts lines}

theorem pads_drawingOf (same_images : images.length = others.length)
    (same_texts : texts.length = lines.length) :
    (drawingOf fontDir images texts).map Statement.pads =
      (drawingOf fontDir others lines).map Statement.pads := by
  apply pads_drawing
  · simpa only [ImageInput.length_ofOverlays] using same_images
  · simpa only [List.length_map] using same_texts

/-- The statements of the images depend on the texts by their number only. -/
theorem filter_not_isDrawText_drawingOf (same : texts.length = lines.length) :
    (drawingOf fontDir images texts).filter (fun s => !s.isDrawText) =
      (drawingOf fontDir images lines).filter fun s => !s.isDrawText := by
  simp only [drawingOf, filter_not_isDrawText_drawing, List.length_map, same]

/-- The statements of the texts depend on the images by their number only. -/
theorem filter_isDrawText_drawingOf (same : images.length = others.length) :
    (drawingOf fontDir images texts).filter Statement.isDrawText =
      (drawingOf fontDir others texts).filter Statement.isDrawText := by
  simp only [drawingOf, filter_isDrawText_drawing, ImageInput.length_ofOverlays, same]

theorem length_drawingOf (images : List ImageOverlay) (texts : List TextOverlay) :
    (drawingOf fontDir images texts).length = 2 * images.length + texts.length := by
  rw [drawingOf, length_drawing, ImageInput.length_ofOverlays, List.length_map]

theorem getElem?_drawingOf_image {k : Nat} {o : ImageOverlay} (texts : List TextOverlay)
    (h : images[k]? = some o) :
    (drawingOf fontDir images texts)[2 * k]? =
        some (.scale (.input (k + 1)) (.scaled (k + 1)) o.size) ∧
      (drawingOf fontDir images texts)[2 * k + 1]? =
        some (.overlay (.before k) (.scaled (k + 1)) o.position ⟨o.visibleFrom, o.visibleUntil⟩
          (Pad.result? (images.length + texts.length) k)) := by
  have found := ImageInput.getElem?_ofOverlays h
  rw [← List.length_map (lettering fontDir), ← ImageInput.length_ofOverlays images]
  exact ⟨(Drawn.scale found).getElem?, (Drawn.overlay found).getElem?⟩

end

theorem reordered_overlays_keep_their_content (fontDir : String) (images : List ImageOverlay)
    (texts : List TextOverlay) (images_valid : ∀ o ∈ images, o.validate = .ok ())
    (texts_valid : ∀ o ∈ texts, o.IsLetterable fontDir) :
    ∃ g, (compile fontDir (ImageInput.ofOverlays images) texts).value = .ok g ∧
      g.statements.length = 2 * images.length + texts.length ∧
      g.contents Statement.isScale = images.map ImageOverlay.scaling ∧
      g.contents Statement.isOverlay = images.map ImageOverlay.placing ∧
      g.contents Statement.isDrawText = texts.map (TextOverlay.writing fontDir) ∧
      (∀ reordered, texts.Perm reordered → ∃ h,
        (compile fontDir (ImageInput.ofOverlays images) reordered).value = .ok h ∧
        h.statements.length = 2 * images.length + texts.length ∧
        h.statements.map Statement.pads = g.statements.map Statement.pads ∧
        h.statements.filter (fun s => !s.isDrawText) =
          g.statements.filter (fun s => !s.isDrawText) ∧
        h.contents Statement.isDrawText = reordered.map (TextOverlay.writing fontDir) ∧
        MoveAlike texts reordered (g.contents Statement.isDrawText)
          (h.contents Statement.isDrawText)) ∧
      ∀ reordered, images.Perm reordered → ∃ h,
        (compile fontDir (ImageInput.ofOverlays reordered) texts).value = .ok h ∧
        h.statements.length = 2 * images.length + texts.length ∧
        h.statements.map Statement.pads = g.statements.map Statement.pads ∧
        h.statements.filter Statement.isDrawText = g.statements.filter Statement.isDrawText ∧
        h.contents Statement.isScale = reordered.map ImageOverlay.scaling ∧
        h.contents Statement.isOverlay = reordered.map ImageOverlay.placing ∧
        MoveAlike images reordered (g.contents Statement.isScale) (h.contents Statement.isScale) ∧
        MoveAlike images reordered (g.contents Statement.isOverlay)
          (h.contents Statement.isOverlay) ∧
        ∀ k o, reordered[k]? = some o →
          h.statements[2 * k]? = some (.scale (.input (k + 1)) (.scaled (k + 1)) o.size) ∧
          h.statements[2 * k + 1]? = some (.overlay (.before k) (.scaled (k + 1)) o.position
            ⟨o.visibleFrom, o.visibleUntil⟩ (Pad.result? (images.length + texts.length) k)) := by
  refine ⟨⟨drawingOf fontDir images texts⟩,
    value_compile_eq_ok_iff_drawingOf.2 ⟨images_valid, texts_valid, rfl⟩,
    length_drawingOf fontDir images texts, contents_isScale fontDir images texts,
    contents_isOverlay fontDir images texts, contents_isDrawText fontDir images texts, ?_, ?_⟩
  · intro reordered permuted
    have same := permuted.length_eq
    have valid : ∀ o ∈ reordered, o.IsLetterable fontDir :=
      fun o among => texts_valid o (permuted.mem_iff.2 among)
    refine ⟨⟨drawingOf fontDir images reordered⟩,
      value_compile_eq_ok_iff_drawingOf.2 ⟨images_valid, valid, rfl⟩, ?_,
      pads_drawingOf fontDir rfl same.symm, filter_not_isDrawText_drawingOf fontDir same.symm,
      contents_isDrawText fontDir images reordered, ?_⟩
    · rw [length_drawingOf, same]
    · rw [contents_isDrawText, contents_isDrawText]
      exact moveAlike_map permuted _
  · intro reordered permuted
    have same := permuted.length_eq
    have valid : ∀ o ∈ reordered, o.validate = .ok () :=
      fun o among => images_valid o (permuted.mem_iff.2 among)
    refine ⟨⟨drawingOf fontDir reordered texts⟩,
      value_compile_eq_ok_iff_drawingOf.2 ⟨valid, texts_valid, rfl⟩, ?_,
      pads_drawingOf fontDir same.symm rfl, filter_isDrawText_drawingOf fontDir same.symm,
      contents_isScale fontDir reordered texts, contents_isOverlay fontDir reordered texts, ?_, ?_, ?_⟩
    · rw [length_drawingOf, same]
    · rw [contents_isScale, contents_isScale]
      exact moveAlike_map permuted _
    · rw [contents_isOverlay, contents_isOverlay]
      exact moveAlike_map permuted _
    · intro k o found
      rw [same]
      exact getElem?_drawingOf_image fontDir texts found

end Filter

def TextOverlay.heading : TextOverlay := { TextOverlay.caption with id := "heading", text := "100%" }

def ImageOverlay.logo : ImageOverlay := { ImageOverlay.photo with id := "logo", size := ⟨16, 16⟩ }

namespace Filter

theorem caption_and_heading_change_places : ∃ g h k,
    (compile "/f" (ImageInput.ofOverlays [.photo, .logo]) [.caption, .heading]).value = .ok g ∧
    (compile "/f" (ImageInput.ofOverlays [.photo, .logo]) [.heading, .caption]).value = .ok h ∧
    (compile "/f" (ImageInput.ofOverlays [.logo, .photo]) [.caption, .heading]).value = .ok k ∧
    h.statements.map Statement.pads = g.statements.map Statement.pads ∧
    Rearranges [1, 0] (g.contents Statement.isDrawText) (h.contents Statement.isDrawText) ∧
    h.contents Statement.isDrawText =
      [TextOverlay.writing "/f" .heading, TextOverlay.writing "/f" .caption] ∧
    k.statements.map Statement.pads = g.statements.map Statement.pads ∧
    k.statements[2]? = some (.scale (.input 2) (.scaled 2) ImageOverlay.photo.size) := by
  have logo : ∀ o ∈ [ImageOverlay.logo], o.validate = .ok () :=
    List.forall_mem_singleton.2 (by decide +kernel)
  have heading : ∀ o ∈ [TextOverlay.heading], o.IsLetterable "/f" :=
    List.forall_mem_singleton.2 (TextOverlay.isLetterable_of_isSome (by decide +kernel))
  have images : ∀ o ∈ [ImageOverlay.photo, .logo], o.validate = .ok () :=
    List.forall_mem_cons.2 ⟨ImageOverlay.validate_photo, logo⟩
  have texts : ∀ o ∈ [TextOverlay.caption, .heading], o.IsLetterable "/f" :=
    List.forall_mem_cons.2 ⟨TextOverlay.isLetterable_caption, heading⟩
  obtain ⟨g, compiled, -, -, -, -, other_texts, other_images⟩ :=
    reordered_overlays_keep_their_content "/f" [.photo, .logo] [.caption, .heading] images texts
  obtain ⟨h, texts_swapped, -, text_pads, -, contents, -, alike⟩ :=
    other_texts [.heading, .caption] (.swap ..)
  obtain ⟨k, images_swapped, -, image_pads, -, -, -, -, -, places⟩ :=
    other_images [.logo, .photo] (.swap ..)
  have swapped : Rearranges [1, 0] [TextOverlay.caption, .heading] [.heading, .caption] :=
    ⟨.swap .., rfl⟩
  exact ⟨g, h, k, compiled, texts_swapped, images_swapped, text_pads, alike _ swapped, contents,
    image_pads, (places 1 .photo rfl).1⟩

end Filter
end Montage
