import Montage.Proofs.Command
import Montage.Proofs.Graph.Refusal

/-! How the assembly of an edit ends. The edit itself is checked first, then the names of its files, then
the content of its texts; what is reported is the first problem in this order. What the compiler would
report beyond that cannot happen in an edit that is valid. -/
namespace Montage

namespace Filter

theorem map_kind_chainSteps (total index : Nat) (base : Pad) (kinds : List StepKind) :
    (chainSteps total index base kinds).map (·.kind) = kinds := by
  induction kinds generalizing index base with
  | nil => rfl
  | cons kind rest ih => rw [chainSteps, List.map_cons, ih]

/-- The plan has a step for each image, which reads the input that the image is, and then one for each
text. -/
theorem map_kind_planSteps (images : List ImageOverlay) (texts : Nat) :
    (planSteps images.length texts).map (·.kind) =
      (ImageInput.ofOverlays images).map (fun i => .image (.input i.index) (.scaled i.index)) ++
        List.replicate texts .text := by
  rw [planSteps, map_kind_chainSteps, stepKinds, ← ImageInput.map_index_ofOverlays, List.map_map]
  rfl

end Filter

namespace Edit

def sourceName (e : Edit) : String := Naming.source e.format e.source.fileName

def outputName (e : Edit) (o : AssemblyOptions) : String :=
  Naming.output e.sourceName o.suffix e.format

def command (e : Edit) (o : AssemblyOptions) : EditCommand where
  source := e.sourceName
  images := ImageInput.ofOverlays e.images
  graph := ⟨Filter.drawingOf o.fontDir e.images e.texts⟩
  trim := e.trim
  format := e.format
  output := e.outputName o

inductive Assembles (e : Edit) (o : AssemblyOptions) : Except RenderError EditCommand → Prop where
  | invalid {cause : EditError} (fault : e.validate = .error cause) :
      Assembles e o (.error (.invalidEdit cause))
  | overwriting (valid : e.validate = .ok ()) (same : e.outputName o = e.sourceName) :
      Assembles e o
        (.error (.internal ("output name " ++ e.outputName o ++ " would overwrite the source")))
  | unwritable {before after : List TextOverlay} {t : TextOverlay} {cause : EscapeError}
      (valid : e.validate = .ok ()) (apart : e.outputName o ≠ e.sourceName)
      (texts : e.texts = before ++ t :: after)
      (passed : ∀ b ∈ before, ∀ check ∈ b.contentChecks o.fontDir, check = .ok ())
      (fails : FailsFirst (t.contentChecks o.fontDir) cause) :
      Assembles e o (.error (.escape t.id cause))
  | done (valid : e.validate = .ok ()) (apart : e.outputName o ≠ e.sourceName)
      (passed : ∀ t ∈ e.texts, ∀ check ∈ t.contentChecks o.fontDir, check = .ok ()) :
      Assembles e o (.ok (e.command o))

variable {e : Edit} {o : AssemblyOptions}

theorem names_eq_error_iff {err : RenderError} : e.names o = .error err ↔
    (∃ cause, e.validate = .error cause ∧ err = .invalidEdit cause) ∨
      e.validate = .ok () ∧ e.outputName o = e.sourceName ∧
        err = .internal ("output name " ++ e.outputName o ++ " would overwrite the source") := by
  cases checked : e.validate with
  | error cause => simp [names, checked, Except.mapError, bind, Except.bind, eq_comm]
  | ok _ =>
    by_cases same : e.outputName o = e.sourceName
    · have named : e.names o = .error (.internal
          ("output name " ++ e.outputName o ++ " would overwrite the source")) :=
        (names_of_valid checked o).trans (if_pos same)
      simp [named, same, eq_comm]
    · have named : e.names o = .ok (e.sourceName, e.outputName o) :=
        (names_of_valid checked o).trans (if_neg same)
      simp [named, same]

theorem exists_names_iff : (∃ names, e.names o = .ok names) ↔
    e.validate = .ok () ∧ e.outputName o ≠ e.sourceName := by
  constructor
  · rintro ⟨⟨source, output⟩, named⟩
    obtain ⟨valid, rfl, rfl, apart⟩ := names_eq_ok_iff.1 named
    exact ⟨valid, apart⟩
  · rintro ⟨valid, apart⟩
    exact ⟨_, names_eq_ok_iff.2 ⟨valid, rfl, rfl, apart⟩⟩

theorem overlays_valid (valid : e.validate = .ok ()) :
    (∀ i ∈ e.images, i.validate = .ok ()) ∧ ∀ t ∈ e.texts, t.validate = .ok () := by
  obtain ⟨-, images, texts, -⟩ := validate_eq_ok_iff.1 valid
  exact ⟨images, texts⟩

/-- In a valid edit only the content of a text can be refused, by the check that fails first. -/
theorem value_compile_eq_error_iff {err : RenderError} (valid : e.validate = .ok ()) :
    (Filter.compile o.fontDir (ImageInput.ofOverlays e.images) e.texts).value = .error err ↔
      ∃ before t after cause, e.texts = before ++ t :: after ∧
        (∀ b ∈ before, ∀ check ∈ b.contentChecks o.fontDir, check = .ok ()) ∧
          FailsFirst (t.contentChecks o.fontDir) cause ∧ err = .escape t.id cause :=
  Filter.value_compile_eq_error_iff (overlays_valid valid).1 (overlays_valid valid).2

theorem assembles_value (e : Edit) (o : AssemblyOptions) : e.Assembles o (e.assemble o).value := by
  cases assembled : (e.assemble o).value with
  | error err =>
    rcases value_assemble_eq_error_iff.1 assembled with unnamed | ⟨named, undrawn⟩
    · rcases names_eq_error_iff.1 unnamed with ⟨cause, fault, rfl⟩ | ⟨valid, same, rfl⟩
      · exact .invalid fault
      · exact .overwriting valid same
    · obtain ⟨valid, apart⟩ := exists_names_iff.1 named
      rw [← Filter.value_compile, value_compile_eq_error_iff valid] at undrawn
      obtain ⟨before, t, after, cause, texts, passed, fails, rfl⟩ := undrawn
      exact .unwritable valid apart texts passed fails
  | ok c =>
    obtain ⟨source, output, graph, named, compiled, rfl⟩ := value_assemble_eq_ok_iff.1 assembled
    obtain ⟨valid, rfl, rfl, apart⟩ := names_eq_ok_iff.1 named
    obtain ⟨-, letterable, rfl⟩ := Filter.value_compile_eq_ok_iff_drawingOf.1 compiled
    exact .done valid apart fun t among => (letterable t among).content

theorem Assembles.value_eq {result : Except RenderError EditCommand} (h : e.Assembles o result) :
    (e.assemble o).value = result := by
  cases h with
  | invalid fault =>
    exact value_assemble_eq_error_iff.2 (.inl (names_eq_error_iff.2 (.inl ⟨_, fault, rfl⟩)))
  | overwriting valid same =>
    exact value_assemble_eq_error_iff.2 (.inl (names_eq_error_iff.2 (.inr ⟨valid, same, rfl⟩)))
  | @unwritable before after t cause valid apart texts passed fails =>
    have undrawn := (value_compile_eq_error_iff (o := o) valid).2
      ⟨before, t, after, cause, texts, passed, fails, rfl⟩
    rw [Filter.value_compile] at undrawn
    exact value_assemble_eq_error_iff.2 (.inr ⟨exists_names_iff.2 ⟨valid, apart⟩, undrawn⟩)
  | done valid apart passed =>
    obtain ⟨images, texts⟩ := overlays_valid valid
    have letterable : ∀ t ∈ e.texts, t.IsLetterable o.fontDir :=
      fun t among => ⟨texts t among, passed t among⟩
    exact value_assemble_eq_ok_iff.2 ⟨_, _, _, names_eq_ok_iff.2 ⟨valid, rfl, rfl, apart⟩,
      Filter.value_compile_eq_ok_iff_drawingOf.2 ⟨images, letterable, rfl⟩, rfl⟩

end Edit

theorem assembly_reports_the_first_problem (e : Edit) (o : AssemblyOptions) :
    (∀ result, (e.assemble o).value = result ↔ e.Assembles o result) ∧
    ((∃ command, (e.assemble o).value = .ok command) ↔
      e.validate = .ok () ∧ e.outputName o ≠ e.sourceName ∧
        ∀ t ∈ e.texts, ∀ check ∈ t.contentChecks o.fontDir, check = .ok ()) ∧
    (e.validate = .ok () → ∀ err,
      (Filter.compile o.fontDir (ImageInput.ofOverlays e.images) e.texts).value = .error err →
        ∃ t ∈ e.texts, ∃ cause, err = .escape t.id cause) ∧
    (Filter.planSteps e.images.length e.texts.length).map (·.kind) =
      (ImageInput.ofOverlays e.images).map (fun i => .image (.input i.index) (.scaled i.index)) ++
        List.replicate e.texts.length .text ∧
    ∀ letters, letters.length = e.texts.length → ∃ statements,
      Filter.drawSteps (Filter.planSteps e.images.length e.texts.length)
        (ImageInput.ofOverlays e.images) letters = .ok statements := by
  refine ⟨fun result => ⟨?_, Edit.Assembles.value_eq⟩, ⟨?_, ?_⟩, ?_,
    Filter.map_kind_planSteps e.images e.texts.length, ?_⟩
  · rintro rfl
    exact e.assembles_value o
  · rintro ⟨command, assembled⟩
    have ends := e.assembles_value o
    rw [assembled] at ends
    cases ends with
    | done valid apart passed => exact ⟨valid, apart, passed⟩
  · rintro ⟨valid, apart, passed⟩
    exact ⟨_, (Edit.Assembles.done valid apart passed).value_eq⟩
  · intro valid err refused
    obtain ⟨before, t, after, cause, texts, -, -, rfl⟩ :=
      (Edit.value_compile_eq_error_iff valid).1 refused
    exact ⟨t, texts ▸ List.mem_append_right _ (List.mem_cons_self ..), cause, rfl⟩
  · intro letters same
    have drawn := Filter.drawSteps_planSteps (ImageInput.ofOverlays e.images) letters
    rw [ImageInput.length_ofOverlays, same] at drawn
    exact ⟨_, drawn⟩

end Montage
