import Montage.Filter.Compile
import Montage.Proofs.Check
import Montage.Proofs.Overlay

/-! The statements of a compiled graph, written down at once. Image and text steps are numbered
through; each draws onto the result of the step before it. Compiling gives exactly these statements,
or an error of an overlay, and never one of its own plan. -/
namespace Montage

namespace ImageInput

theorem length_ofOverlays (images : List ImageOverlay) :
    (ofOverlays images).length = images.length := by
  simp [ofOverlays]

theorem getElem?_ofOverlays {images : List ImageOverlay} {k : Nat} {o : ImageOverlay}
    (h : images[k]? = some o) : (ofOverlays images)[k]? = some ⟨o, k + 1⟩ := by
  simp [ofOverlays, h, Nat.add_comm]

theorem map_overlay_ofOverlays (images : List ImageOverlay) :
    (ofOverlays images).map (·.overlay) = images := by
  simp [ofOverlays, Function.comp_def, List.zipIdx_map_fst]

theorem map_index_ofOverlays (images : List ImageOverlay) :
    (ofOverlays images).map (·.index) = List.range' 1 images.length := by
  simp [ofOverlays, Function.comp_def, List.zipIdx_map_snd]

end ImageInput

namespace Filter

namespace Pad

def before : Nat → Pad
  | 0 => source
  | i + 1 => composite (i + 1)

def result? (total i : Nat) : Option Pad := if i + 1 < total then some (composite (i + 1)) else none

theorem result?_eq_some_iff {total i : Nat} {p : Pad} :
    result? total i = some p ↔ i + 1 < total ∧ p = before (i + 1) := by
  rw [result?, Option.ite_none_right_eq_some, Option.some.injEq, eq_comm (a := p)]
  rfl

theorem result?_eq_none_iff {total i : Nat} : result? total i = none ↔ total ≤ i + 1 := by
  simp [result?]

end Pad

def imagePart (total : Nat) : Nat → List ImageInput → List Statement
  | _, [] => []
  | i, image :: rest =>
    imageStatements image.overlay (.input (i + 1)) (.scaled (i + 1)) (.before i)
      (Pad.result? total i) ++ imagePart total (i + 1) rest

def textPart (total : Nat) : Nat → List Lettering → List Statement
  | _, [] => []
  | i, l :: rest => l.statement (.before i) (Pad.result? total i) :: textPart total (i + 1) rest

def drawing (images : List ImageInput) (letters : List Lettering) : List Statement :=
  let total := images.length + letters.length
  imagePart total 0 images ++ textPart total images.length letters

/-- Overlays of one kind drawn one after another, each by a step that gets its pads from the place. -/
structure DrawsEach {α : Type} (step : Nat → Option Pad → α → List Statement)
    (part : Nat → Nat → List α → List Statement) : Prop where
  nil : ∀ total i, part total i [] = []
  cons : ∀ total i x rest,
    part total i (x :: rest) = step i (Pad.result? total i) x ++ part total (i + 1) rest

inductive Drawn (images : List ImageInput) (letters : List Lettering) : Nat → Statement → Prop where
  | scale {k : Nat} {image : ImageInput} (h : images[k]? = some image) :
      Drawn images letters (2 * k) (.scale (.input (k + 1)) (.scaled (k + 1)) image.overlay.size)
  | overlay {k : Nat} {image : ImageInput} (h : images[k]? = some image) :
      Drawn images letters (2 * k + 1)
        (.overlay (.before k) (.scaled (k + 1)) image.overlay.position
          ⟨image.overlay.visibleFrom, image.overlay.visibleUntil⟩
          (Pad.result? (images.length + letters.length) k))
  | text {k : Nat} {l : Lettering} (h : letters[k]? = some l) :
      Drawn images letters (2 * images.length + k)
        (l.statement (.before (images.length + k))
          (Pad.result? (images.length + letters.length) (images.length + k)))

theorem chainSteps_cons {total index : Nat} {kind : StepKind} {kinds : List StepKind}
    (h : index + (kinds.length + 1) = total) :
    chainSteps total index (.before index) (kind :: kinds) =
      ⟨kind, .before index, Pad.result? total index⟩ ::
        chainSteps total (index + 1) (.before (index + 1)) kinds := by
  cases kinds with
  | nil => rfl
  | cons next rest =>
    have more : index + 1 < total := by simp only [List.length_cons] at h; omega
    simp only [chainSteps, Pad.result?, if_pos more, Option.getD_some]
    rfl

theorem drawSteps_text {total index : Nat} {letters : List Lettering}
    (h : index + letters.length = total) :
    drawSteps (chainSteps total index (.before index) (List.replicate letters.length .text)) []
      letters = .ok (textPart total index letters) := by
  induction letters generalizing index with
  | nil => rfl
  | cons l rest ih =>
    simp only [List.length_cons] at h
    rw [List.length_cons, List.replicate_succ, chainSteps_cons (by simpa using h), drawSteps,
      ih (by omega)]
    rfl

theorem drawSteps_image {total index : Nat} {images : List ImageInput} {letters : List Lettering}
    (h : index + (images.length + letters.length) = total) :
    drawSteps (chainSteps total index (.before index)
      ((List.range' (index + 1) images.length).map (fun n => .image (.input n) (.scaled n)) ++
        List.replicate letters.length .text)) images letters =
      .ok (imagePart total index images ++ textPart total (index + images.length) letters) := by
  induction images generalizing index with
  | nil => simpa [imagePart] using drawSteps_text (by simpa using h)
  | cons image rest ih =>
    simp only [List.length_cons] at h
    rw [List.length_cons, List.range'_succ, List.map_cons, List.cons_append,
      chainSteps_cons (by simpa [Nat.add_assoc, Nat.add_comm, Nat.add_left_comm] using h),
      drawSteps, ih (by omega), show index + 1 + rest.length = index + (rest.length + 1) by omega]
    rfl

/-- The plan has a step for each image and each text, so carrying it out cannot fail. -/
theorem drawSteps_planSteps (images : List ImageInput) (letters : List Lettering) :
    drawSteps (planSteps images.length letters.length) images letters =
      .ok (drawing images letters) := by
  have steps := drawSteps_image (Nat.zero_add (images.length + letters.length))
  simpa [planSteps, stepKinds, drawing, Pad.before] using steps

theorem drawsEach_imagePart : DrawsEach
    (fun i output (image : ImageInput) =>
      imageStatements image.overlay (.input (i + 1)) (.scaled (i + 1)) (.before i) output)
    imagePart :=
  ⟨fun _ _ => rfl, fun _ _ _ _ => rfl⟩

theorem drawsEach_textPart :
    DrawsEach (fun i output (l : Lettering) => [l.statement (.before i) output]) textPart :=
  ⟨fun _ _ => rfl, fun _ _ _ _ => rfl⟩

theorem DrawsEach.append {α : Type} {step : Nat → Option Pad → α → List Statement}
    {part : Nat → Nat → List α → List Statement} (h : DrawsEach step part) (total i : Nat)
    (xs ys : List α) :
    part total i (xs ++ ys) = part total i xs ++ part total (i + xs.length) ys := by
  induction xs generalizing i with
  | nil => rw [h.nil, List.nil_append, List.nil_append, List.length_nil, Nat.add_zero]
  | cons x rest ih =>
    rw [List.cons_append, h.cons, h.cons, ih, List.append_assoc, List.length_cons,
      show i + 1 + rest.length = i + (rest.length + 1) by omega]

theorem length_imagePart (total i : Nat) (images : List ImageInput) :
    (imagePart total i images).length = 2 * images.length := by
  induction images generalizing i with
  | nil => rfl
  | cons image rest ih =>
    simp only [imagePart, imageStatements, List.length_append, List.length_cons, List.length_nil, ih]
    omega

theorem length_textPart (total i : Nat) (letters : List Lettering) :
    (textPart total i letters).length = letters.length := by
  induction letters generalizing i with
  | nil => rfl
  | cons l rest ih => simp only [textPart, List.length_cons, ih]

theorem length_drawing (images : List ImageInput) (letters : List Lettering) :
    (drawing images letters).length = 2 * images.length + letters.length := by
  simp only [drawing, List.length_append, length_imagePart, length_textPart]

theorem getElem?_imagePart {images : List ImageInput} {k : Nat} {image : ImageInput}
    (h : images[k]? = some image) (total i : Nat) :
    (imagePart total i images)[2 * k]? =
        some (.scale (.input (i + k + 1)) (.scaled (i + k + 1)) image.overlay.size) ∧
      (imagePart total i images)[2 * k + 1]? =
        some (.overlay (.before (i + k)) (.scaled (i + k + 1)) image.overlay.position
          ⟨image.overlay.visibleFrom, image.overlay.visibleUntil⟩ (Pad.result? total (i + k))) := by
  induction images generalizing i k with
  | nil => cases h
  | cons first rest ih =>
    cases k with
    | zero =>
      cases h
      exact ⟨rfl, rfl⟩
    | succ k =>
      have tail := ih h (i + 1)
      rw [show i + 1 + k = i + (k + 1) by omega] at tail
      exact tail

theorem getElem?_textPart {letters : List Lettering} {k : Nat} {l : Lettering}
    (h : letters[k]? = some l) (total i : Nat) :
    (textPart total i letters)[k]? =
      some (l.statement (.before (i + k)) (Pad.result? total (i + k))) := by
  induction letters generalizing i k with
  | nil => cases h
  | cons first rest ih =>
    cases k with
    | zero =>
      cases h
      rfl
    | succ k =>
      have tail := ih h (i + 1)
      rw [show i + 1 + k = i + (k + 1) by omega] at tail
      exact tail

theorem Drawn.getElem? {images : List ImageInput} {letters : List Lettering} {i : Nat}
    {s : Statement} (h : Drawn images letters i s) : (drawing images letters)[i]? = some s := by
  simp only [drawing]
  cases h with
  | scale h =>
    have found := (getElem?_imagePart h (images.length + letters.length) 0).1
    rw [Nat.zero_add] at found
    exact (List.getElem?_append_left (List.getElem?_eq_some_iff.1 found).1).trans found
  | overlay h =>
    have found := (getElem?_imagePart h (images.length + letters.length) 0).2
    rw [Nat.zero_add] at found
    exact (List.getElem?_append_left (List.getElem?_eq_some_iff.1 found).1).trans found
  | text h =>
    rw [List.getElem?_append_right (by rw [length_imagePart]; omega), length_imagePart,
      Nat.add_sub_cancel_left]
    exact getElem?_textPart h _ _

theorem getElem?_drawing_iff {images : List ImageInput} {letters : List Lettering} {i : Nat}
    {s : Statement} : (drawing images letters)[i]? = some s ↔ Drawn images letters i s := by
  refine ⟨fun h => ?_, Drawn.getElem?⟩
  have drawn : ∃ t, Drawn images letters i t := by
    obtain ⟨bound, -⟩ := List.getElem?_eq_some_iff.1 h
    rw [length_drawing] at bound
    by_cases among : i < 2 * images.length
    · have half : i / 2 < images.length := by omega
      have found : images[i / 2]? = some images[i / 2] := List.getElem?_eq_getElem half
      rcases Nat.mod_two_eq_zero_or_one i with even | odd
      · have place : 2 * (i / 2) = i := by omega
        exact ⟨_, place ▸ Drawn.scale found⟩
      · have place : 2 * (i / 2) + 1 = i := by omega
        exact ⟨_, place ▸ Drawn.overlay found⟩
    · obtain ⟨k, rfl⟩ := Nat.exists_eq_add_of_le (Nat.le_of_not_lt among)
      have other : k < letters.length := by omega
      have found : letters[k]? = some letters[k] := List.getElem?_eq_getElem other
      exact ⟨_, .text found⟩
  obtain ⟨t, ht⟩ := drawn
  have same : s = t := Option.some.inj (h.symm.trans ht.getElem?)
  exact same ▸ ht

theorem letterAll_eq_ok_iff {fontDir : String} {texts : List TextOverlay}
    {letters : List Lettering} :
    letterAll fontDir texts = .ok letters ↔
      List.Forall₂ (fun o l => letter fontDir o = .ok l) texts letters :=
  eachOk_iff (f := letterAll fontDir) (g := letter fontDir) rfl fun _ _ => rfl

theorem checkImages_eq (images : List ImageInput) : checkImages images =
    inOrder (images.map fun i => i.overlay.validate.mapError .invalidEdit) := by
  induction images with
  | nil => rfl
  | cons image rest ih => rw [checkImages, ih, List.map_cons, inOrder]

theorem checkImages_eq_ok_iff {images : List ImageInput} :
    checkImages images = .ok () ↔ ∀ i ∈ images, i.overlay.validate = .ok () := by
  simp only [checkImages_eq, inOrder_eq_ok_iff, List.forall_mem_map, mapError_eq_ok_iff]

theorem graphOf_eq_ok_iff {fontDir : String} {images : List ImageInput}
    {texts : List TextOverlay} {g : Graph} :
    graphOf fontDir images texts = .ok g ↔
      (∀ i ∈ images, i.overlay.validate = .ok ()) ∧
      ∃ letters, List.Forall₂ (fun o l => letter fontDir o = .ok l) texts letters ∧
        g.statements = drawing images letters := by
  simp only [graphOf]
  rw [check_bind_eq_ok_iff, checkImages_eq_ok_iff]
  simp only [bind_eq_ok_iff, letterAll_eq_ok_iff]
  refine and_congr_right fun _ => exists_congr fun letters => and_congr_right fun lettered => ?_
  rw [lettered.length_eq, drawSteps_planSteps]
  constructor
  · rintro ⟨statements, drawn, whole⟩
    cases drawn
    cases whole
    rfl
  · intro h
    exact ⟨g.statements, congrArg Except.ok h.symm, rfl⟩

theorem letterAll_eq_error_iff {fontDir : String} {texts : List TextOverlay} {err : RenderError} :
    letterAll fontDir texts = .error err ↔ ∃ before o after, texts = before ++ o :: after ∧
      (∀ t ∈ before, ∃ l, letter fontDir t = .ok l) ∧ letter fontDir o = .error err :=
  each_eq_error_iff (f := letterAll fontDir) (g := letter fontDir) rfl fun _ _ => rfl

/-- Once the overlays are checked, nothing is left that could fail: the plan can be carried out. -/
theorem graphOf_eq_error_iff {fontDir : String} {images : List ImageInput}
    {texts : List TextOverlay} {err : RenderError} :
    graphOf fontDir images texts = .error err ↔ checkImages images = .error err ∨
      checkImages images = .ok () ∧ letterAll fontDir texts = .error err := by
  rw [graphOf, check_bind_eq_error_iff]
  refine or_congr_right (and_congr_right fun _ => ?_)
  rw [bind_eq_error_iff]
  constructor
  · rintro (failed | ⟨letters, lettered, rest⟩)
    · exact failed
    · rw [(letterAll_eq_ok_iff.1 lettered).length_eq, drawSteps_planSteps] at rest
      cases rest
  · exact .inl

/-- Where the images are valid, only a text can be refused. -/
theorem exists_letter_error_of_graphOf {fontDir : String} {images : List ImageInput}
    {texts : List TextOverlay} {err : RenderError}
    (valid : ∀ i ∈ images, i.overlay.validate = .ok ())
    (h : graphOf fontDir images texts = .error err) : ∃ o ∈ texts, letter fontDir o = .error err := by
  rcases graphOf_eq_error_iff.1 h with failed | ⟨-, failed⟩
  · cases (checkImages_eq_ok_iff.2 valid).symm.trans failed
  · obtain ⟨before, o, after, rfl, -, refused⟩ := letterAll_eq_error_iff.1 failed
    exact ⟨o, List.mem_append_right _ (List.mem_cons_self ..), refused⟩

theorem value_compile (fontDir : String) (images : List ImageInput) (texts : List TextOverlay) :
    (compile fontDir images texts).value = graphOf fontDir images texts := by
  simp only [compile]
  split <;> simp_all

theorem value_compile_eq_ok_iff {fontDir : String} {images : List ImageInput}
    {texts : List TextOverlay} {g : Graph} :
    (compile fontDir images texts).value = .ok g ↔ graphOf fontDir images texts = .ok g := by
  rw [value_compile]

end Filter
end Montage
