import Montage.Proofs.Graph.Content

/-! How a compilation ends, whatever the overlays are. All images are checked before any text, and each
text from its fields to its font file; what is reported is the first problem in this order. -/
namespace Montage
namespace Filter

variable {fontDir : String} {images : List ImageOverlay} {texts : List TextOverlay}

inductive Compiles (fontDir : String) (images : List ImageOverlay) (texts : List TextOverlay) :
    Except RenderError Graph → Prop where
  | invalidImage {before after : List ImageOverlay} {o : ImageOverlay} {cause : EditError}
      (parts : images = before ++ o :: after) (passed : ∀ b ∈ before, b.validate = .ok ())
      (fault : o.validate = .error cause) :
      Compiles fontDir images texts (.error (.invalidEdit cause))
  | invalidText {before after : List TextOverlay} {o : TextOverlay} {cause : EditError}
      (valid : ∀ i ∈ images, i.validate = .ok ()) (parts : texts = before ++ o :: after)
      (passed : ∀ b ∈ before, b.IsLetterable fontDir) (fault : o.validate = .error cause) :
      Compiles fontDir images texts (.error (.invalidEdit cause))
  | unwritable {before after : List TextOverlay} {o : TextOverlay} {cause : EscapeError}
      (valid : ∀ i ∈ images, i.validate = .ok ()) (parts : texts = before ++ o :: after)
      (passed : ∀ b ∈ before, b.IsLetterable fontDir) (fields : o.validate = .ok ())
      (fails : FailsFirst (o.contentChecks fontDir) cause) :
      Compiles fontDir images texts (.error (.escape o.id cause))
  | done (valid : ∀ i ∈ images, i.validate = .ok ())
      (letterable : ∀ t ∈ texts, t.IsLetterable fontDir) :
      Compiles fontDir images texts (.ok ⟨drawingOf fontDir images texts⟩)

/-- The images of an edit are checked one by one; their numbers do not matter. -/
theorem checkImages_ofOverlays (images : List ImageOverlay) :
    checkImages (ImageInput.ofOverlays images) =
      inOrder (images.map fun o => o.validate.mapError .invalidEdit) := by
  conv_rhs => rw [← ImageInput.map_overlay_ofOverlays images, List.map_map]
  exact checkImages_eq _

theorem checkImages_ofOverlays_eq_ok_iff :
    checkImages (ImageInput.ofOverlays images) = .ok () ↔ ∀ o ∈ images, o.validate = .ok () := by
  simp only [checkImages_ofOverlays, inOrder_eq_ok_iff, List.forall_mem_map, mapError_eq_ok_iff]

theorem checkImages_ofOverlays_eq_error_iff {err : RenderError} :
    checkImages (ImageInput.ofOverlays images) = .error err ↔
      ∃ before o after, images = before ++ o :: after ∧ (∀ b ∈ before, b.validate = .ok ()) ∧
        ∃ cause, o.validate = .error cause ∧ .invalidEdit cause = err := by
  simp only [checkImages_ofOverlays, inOrder_eq_error_iff, failsFirst_map_iff, mapError_eq_ok_iff,
    mapError_eq_error_iff]

theorem compiles_value (fontDir : String) (images : List ImageOverlay) (texts : List TextOverlay) :
    Compiles fontDir images texts (compile fontDir (ImageInput.ofOverlays images) texts).value := by
  cases compiled : (compile fontDir (ImageInput.ofOverlays images) texts).value with
  | error err =>
    rw [value_compile, graphOf_eq_error_iff] at compiled
    rcases compiled with failed | ⟨checked, failed⟩
    · obtain ⟨before, o, after, parts, passed, cause, fault, rfl⟩ :=
        checkImages_ofOverlays_eq_error_iff.1 failed
      exact .invalidImage parts passed fault
    · have valid := checkImages_ofOverlays_eq_ok_iff.1 checked
      simp only [letterAll_eq_error_iff, exists_letter_iff] at failed
      obtain ⟨before, o, after, parts, passed, refused⟩ := failed
      rcases letter_eq_error_iff.1 refused with ⟨cause, fault, rfl⟩ | ⟨fields, cause, fails, rfl⟩
      · exact .invalidText valid parts passed fault
      · exact .unwritable valid parts passed fields fails
  | ok g =>
    obtain ⟨valid, letterable, rfl⟩ := value_compile_eq_ok_iff_drawingOf.1 compiled
    exact .done valid letterable

theorem Compiles.value_eq {result : Except RenderError Graph}
    (h : Compiles fontDir images texts result) :
    (compile fontDir (ImageInput.ofOverlays images) texts).value = result := by
  have reached {before after : List TextOverlay} {o : TextOverlay} {err : RenderError}
      (valid : ∀ i ∈ images, i.validate = .ok ()) (parts : texts = before ++ o :: after)
      (passed : ∀ b ∈ before, b.IsLetterable fontDir) (refused : letter fontDir o = .error err) :
      (compile fontDir (ImageInput.ofOverlays images) texts).value = .error err := by
    rw [value_compile, graphOf_eq_error_iff, letterAll_eq_error_iff]
    exact .inr ⟨checkImages_ofOverlays_eq_ok_iff.2 valid, before, o, after, parts,
      fun b among => exists_letter_iff.2 (passed b among), refused⟩
  cases h with
  | invalidImage parts passed fault =>
    rw [value_compile, graphOf_eq_error_iff]
    exact .inl (checkImages_ofOverlays_eq_error_iff.2 ⟨_, _, _, parts, passed, _, fault, rfl⟩)
  | invalidText valid parts passed fault =>
    exact reached valid parts passed (letter_eq_error_iff.2 (.inl ⟨_, fault, rfl⟩))
  | unwritable valid parts passed fields fails =>
    exact reached valid parts passed (letter_eq_error_iff.2 (.inr ⟨fields, _, fails, rfl⟩))
  | done valid letterable => exact value_compile_eq_ok_iff_drawingOf.2 ⟨valid, letterable, rfl⟩

theorem value_compile_eq_iff {result : Except RenderError Graph} :
    (compile fontDir (ImageInput.ofOverlays images) texts).value = result ↔
      Compiles fontDir images texts result := by
  constructor
  · rintro rfl
    exact compiles_value fontDir images texts
  · exact Compiles.value_eq

/-- Overlays that are valid are refused for the content of the first text that cannot be drawn. -/
theorem value_compile_eq_error_iff {err : RenderError}
    (images_valid : ∀ o ∈ images, o.validate = .ok ())
    (texts_valid : ∀ o ∈ texts, o.validate = .ok ()) :
    (compile fontDir (ImageInput.ofOverlays images) texts).value = .error err ↔
      ∃ before o after cause, texts = before ++ o :: after ∧
        (∀ t ∈ before, ∀ check ∈ t.contentChecks fontDir, check = .ok ()) ∧
          FailsFirst (o.contentChecks fontDir) cause ∧ err = .escape o.id cause := by
  rw [value_compile_eq_iff]
  constructor
  · intro ends
    cases ends with
    | @invalidImage before after o cause parts passed fault =>
      have among : o ∈ images := parts ▸ List.mem_append_right _ List.mem_cons_self
      cases (images_valid o among).symm.trans fault
    | @invalidText before after o cause valid parts passed fault =>
      have among : o ∈ texts := parts ▸ List.mem_append_right _ List.mem_cons_self
      cases (texts_valid o among).symm.trans fault
    | unwritable valid parts passed fields fails =>
      exact ⟨_, _, _, _, parts, fun t among => (passed t among).content, fails, rfl⟩
  · rintro ⟨before, o, after, cause, rfl, passed, fails, rfl⟩
    rw [List.forall_mem_append, List.forall_mem_cons] at texts_valid
    obtain ⟨fields_before, fields, -⟩ := texts_valid
    have letterable : ∀ t ∈ before, t.IsLetterable fontDir :=
      fun t among => ⟨fields_before t among, passed t among⟩
    exact .unwritable images_valid rfl letterable fields fails

theorem metrics_compile (fontDir : String) (images : List ImageInput) (texts : List TextOverlay) :
    (compile fontDir images texts).metrics =
      if (compile fontDir images texts).value.isOk then [.graphCompiled] else [] := by
  rw [compile]
  cases graphOf fontDir images texts <;> rfl

/-- Without texts the fonts do not matter, wherever they are looked for. -/
theorem compile_nil (fontDir other : String) (images : List ImageInput) :
    compile fontDir images [] = compile other images [] := rfl

/-- A compilation draws all overlays or reports the first problem with one of them, for any overlays:
their ids may repeat, and several checks may fail at once. -/
theorem compilation_reports_the_first_problem (fontDir : String) (images : List ImageOverlay)
    (texts : List TextOverlay) :
    (∀ result, (compile fontDir (ImageInput.ofOverlays images) texts).value = result ↔
      Compiles fontDir images texts result) ∧
    ((∃ g, (compile fontDir (ImageInput.ofOverlays images) texts).value = .ok g) ↔
      (∀ o ∈ images, o.validate = .ok ()) ∧
        ∀ o ∈ texts, o.validate = .ok () ∧ checkFontFamily o.fontFamily = .ok () ∧
          checkColor o.color = .ok () ∧ (∃ text, escapeText o.text = .ok text) ∧
          checkFontPath (fontFile fontDir o.fontFamily) = .ok ()) ∧
    (compile fontDir (ImageInput.ofOverlays images) texts).metrics =
      (if (compile fontDir (ImageInput.ofOverlays images) texts).value.isOk then [.graphCompiled]
      else []) ∧
    ∀ other, compile fontDir (ImageInput.ofOverlays images) [] =
      compile other (ImageInput.ofOverlays images) [] := by
  refine ⟨fun result => value_compile_eq_iff, ?_, metrics_compile _ _ _,
    fun other => compile_nil fontDir other _⟩
  simp only [value_compile_eq_ok_iff_drawingOf, ← isLetterable_iff, exists_and_left, exists_eq,
    and_true]

end Filter
end Montage
