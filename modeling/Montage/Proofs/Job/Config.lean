import Montage.Job.Config
import Montage.Proofs.Command.Shape
import Montage.Proofs.Graph.Lettering

/-! What a valid configuration promises. With one, a valid edit has names for its files and safe paths
for its fonts, so that nothing but the content of its texts can be refused. -/
namespace Montage

/-- A text that can be drawn wherever fonts are looked for. -/
structure TextOverlay.IsDrawable (o : TextOverlay) : Prop where
  family : Filter.checkFontFamily o.fontFamily = .ok ()
  color : Filter.checkColor o.color = .ok ()
  nonempty : o.text ≠ ""
  characters : ∀ c ∈ o.text.toList, Text.isControl c = false

inductive TextOverlay.Refused (o : TextOverlay) : EscapeError → Prop where
  | family (h : Filter.checkFontFamily o.fontFamily ≠ .ok ()) :
      Refused o (.invalidFontFamily o.fontFamily)
  | color (h : Filter.checkColor o.color ≠ .ok ()) : Refused o (.invalidColor o.color)
  | empty (h : o.text = "") : Refused o .empty
  | character {c : Char} {i : Nat} (found : o.text.toList[i]? = some c)
      (control : Text.isControl c = true)
      (first : ∀ j < i, ∀ d, o.text.toList[j]? = some d → Text.isControl d = false) :
      Refused o (.unsupportedCharacter c i)

theorem TextOverlay.Refused.not_isDrawable {o : TextOverlay} {cause : EscapeError}
    (h : o.Refused cause) : ¬ o.IsDrawable := by
  intro drawable
  cases h with
  | family h => exact h drawable.family
  | color h => exact h drawable.color
  | empty h => exact drawable.nonempty h
  | character found control _ =>
    rw [drawable.characters _ (List.mem_of_getElem? found)] at control
    cases control

namespace Filter

variable {fontDir : String} {o : TextOverlay}

theorem isDrawable_of_letter {l : Lettering} (h : letter fontDir o = .ok l) : o.IsDrawable := by
  obtain ⟨-, family, color, -, text, escaped, -⟩ := letter_eq_ok_iff.1 h
  obtain ⟨nonempty, characters, -⟩ := escapeText_eq_ok_iff.1 escaped
  exact ⟨family, color, nonempty, firstControl?_eq_none_iff.1 characters⟩

/-- The font path of a valid text is safe in a safe directory, so its check never fails. -/
theorem refused_of_letter {err : RenderError} (dir : checkFontPath fontDir = .ok ())
    (valid : o.validate = .ok ()) (h : letter fontDir o = .error err) :
    ∃ cause, err = .escape o.id cause ∧ o.Refused cause := by
  obtain ⟨cause, fault, -⟩ | ⟨-, cause, refused, rfl⟩ := letter_eq_error_iff.1 h
  · cases valid.symm.trans fault
  simp only [TextOverlay.contentChecks, failsFirst_cons_iff, not_failsFirst_nil, and_false,
    or_false] at refused
  rcases refused with family | ⟨family, color | ⟨-, text | ⟨-, path⟩⟩⟩
  · refine ⟨cause, rfl, ?_⟩
    rw [checkFontFamily_eq_error family]
    exact .family (by simp [family])
  · refine ⟨cause, rfl, ?_⟩
    rw [checkColor_eq_error color]
    exact .color (by simp [color])
  · refine ⟨cause, rfl, ?_⟩
    rw [map_eq_error_iff, escapeText_eq_error_iff] at text
    rcases text with ⟨empty, rfl⟩ | ⟨c, i, found, rfl⟩
    · exact .empty empty
    · obtain ⟨found, control, first⟩ := firstControl?_eq_some_iff.1 found
      exact .character found control first
  · cases (checkFontPath_fontFile dir family).symm.trans path

end Filter

namespace Config

theorem isSafeFontDir_iff {dir : String} :
    isSafeFontDir dir = true ↔ Filter.checkFontPath dir = .ok () := by
  simp only [isSafeFontDir]
  split
  · rename_i safe
    simp [safe]
  · rename_i failed
    simp [failed]

theorem validate_eq_ok_iff {c : Config} : c.validate = .ok () ↔ c.suffix ≠ "" ∧
    '/' ∉ c.suffix.toList ∧ Filter.checkFontPath c.fontDir = .ok () ∧ c.logLevel ∈ logLevels := by
  rw [← isSafeFontDir_iff]
  constructor
  · intro h
    simp only [validate] at h
    split at h
    · cases h
    · rename_i suffix
      split at h
      · cases h
      · rename_i single
        split at h
        · cases h
        · rename_i dir
          split at h
          · cases h
          · rename_i level
            exact ⟨suffix, single, by simpa using dir, by simpa using level⟩
  · rintro ⟨suffix, single, dir, level⟩
    simp [validate, suffix, single, dir, level]

end Config

/-- With a suffix, the output of a valid edit never has the name of its source. -/
theorem Edit.exists_names {e : Edit} {o : AssemblyOptions} (valid : e.validate = .ok ())
    (nonempty : o.suffix ≠ "") : ∃ names, e.names o = .ok names := by
  have source : Path.IsName (Naming.source e.format e.source.fileName).toList :=
    (Naming.isSourceName_source e.format e.source.fileName).isName
  refine ⟨_, names_eq_ok_iff.2 ⟨valid, rfl, rfl, ?_⟩⟩
  intro same
  have texts := congrArg String.toList same
  rw [Naming.toList_output] at texts
  exact Naming.outputChars_ne source (by simpa using nonempty) e.format texts

theorem valid_settings_refuse_only_content (c : Config) (e : Edit) (settings : c.validate = .ok ())
    (valid : e.validate = .ok ()) :
    ((∃ command, (e.assemble c.assemblyOptions).value = .ok command) ↔
      ∀ o ∈ e.texts, o.IsDrawable) ∧
    ∀ err, (e.assemble c.assemblyOptions).value = .error err →
      ∃ o ∈ e.texts, ∃ cause, err = .escape o.id cause ∧ o.Refused cause := by
  obtain ⟨suffix, -, dir, -⟩ := Config.validate_eq_ok_iff.1 settings
  obtain ⟨-, images, texts, -⟩ := Edit.validate_eq_ok_iff.1 valid
  have failure : ∀ err, (e.assemble c.assemblyOptions).value = .error err →
      ∃ o ∈ e.texts, ∃ cause, err = .escape o.id cause ∧ o.Refused cause := by
    intro err failed
    rcases Edit.value_assemble_eq_error_iff.1 failed with unnamed | ⟨-, refused⟩
    · obtain ⟨names, named⟩ := Edit.exists_names (o := c.assemblyOptions) valid suffix
      cases named.symm.trans unnamed
    · have inputs : ∀ i ∈ ImageInput.ofOverlays e.images, i.overlay.validate = .ok () := by
        rw [← ImageInput.map_overlay_ofOverlays e.images, List.forall_mem_map] at images
        exact images
      obtain ⟨o, among, unlettered⟩ := Filter.exists_letter_error_of_graphOf inputs refused
      exact ⟨o, among, Filter.refused_of_letter dir (texts o among) unlettered⟩
  refine ⟨⟨?_, ?_⟩, failure⟩
  · rintro ⟨command, assembled⟩ o among
    obtain ⟨-, letters, lettered, -⟩ :=
      Filter.graphOf_eq_ok_iff.1 (Edit.isCommand_of_assemble assembled).graph
    obtain ⟨k, found⟩ := List.mem_iff_getElem?.1 among
    obtain ⟨l, -, lettering⟩ := exists_getElem?_of_forall₂ lettered found
    exact Filter.isDrawable_of_letter lettering
  · intro drawable
    cases assembled : (e.assemble c.assemblyOptions).value with
    | ok command => exact ⟨command, rfl⟩
    | error err =>
      obtain ⟨o, among, cause, -, refused⟩ := failure err assembled
      exact absurd (drawable o among) refused.not_isDrawable

def TextOverlay.wordless : TextOverlay := { TextOverlay.caption with text := "" }

def Edit.wordless : Edit := { Edit.dashed with texts := [.wordless] }

theorem wordless_refused_for_its_text :
    (∃ command, (Edit.dashed.assemble ({} : Config).assemblyOptions).value = .ok command) ∧
    ∃ cause, (Edit.wordless.assemble ({} : Config).assemblyOptions).value =
      .error (.escape "caption" cause) ∧ TextOverlay.wordless.Refused cause := by
  have settings : ({} : Config).validate = .ok () := by decide +kernel
  have dashed : Edit.dashed.validate = .ok () := by decide +kernel
  have wordless : Edit.wordless.validate = .ok () := by decide +kernel
  have caption : TextOverlay.caption.IsDrawable :=
    ⟨by decide +kernel, by decide +kernel, by decide, Text.forall_mem_of_all (by decide +kernel)⟩
  obtain ⟨drawn, -⟩ := valid_settings_refuse_only_content {} Edit.dashed settings dashed
  obtain ⟨undrawn, refusal⟩ := valid_settings_refuse_only_content {} Edit.wordless settings wordless
  refine ⟨drawn.2 (by simpa [Edit.dashed] using caption), ?_⟩
  cases assembled : (Edit.wordless.assemble ({} : Config).assemblyOptions).value with
  | ok command =>
    have drawable := undrawn.1 ⟨command, assembled⟩ .wordless (by simp [Edit.wordless])
    exact absurd rfl drawable.nonempty
  | error err =>
    obtain ⟨o, among, cause, rfl, refused⟩ := refusal err assembled
    cases List.mem_singleton.1 among
    exact ⟨cause, rfl, refused⟩

end Montage
