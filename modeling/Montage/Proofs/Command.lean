import Montage.Command.Assembly
import Montage.Proofs.Edit
import Montage.Proofs.Graph.Drawing

/-! The command of an edit: its inputs are the source and then the images, each under the name that it
is staged under. -/
namespace Montage

def inputValues : List String → List String
  | option :: value :: rest =>
    if option = "-i" then value :: inputValues rest else inputValues (value :: rest)
  | _ => []

theorem inputValues_inputs (paths rest : List String) :
    inputValues ((paths.map fun path => (⟨[], path⟩ : CommandInput)).flatMap
      Command.inputArguments ++ rest) = paths ++ inputValues rest := by
  induction paths with
  | nil => rfl
  | cons path paths ih =>
    simp only [List.map_cons, List.flatMap_cons, Command.inputArguments, List.nil_append,
      List.cons_append, inputValues, if_true, ih]

namespace ImageInput

theorem fileName_inj {i j : ImageInput} (h : i.fileName = j.fileName) : i.index = j.index := by
  have texts := congrArg String.toList h
  simp only [fileName, String.toList_append, List.append_cancel_left_eq,
    List.append_cancel_right_eq, Numeral.text, String.toList_ofList] at texts
  exact Numeral.digits_inj texts

theorem nodup_fileNames (images : List ImageOverlay) :
    ((ofOverlays images).map fileName).Nodup := by
  have numbers : ((ofOverlays images).map (·.index)).Nodup := by
    rw [map_index_ofOverlays]
    exact List.nodup_range'
  rw [List.Nodup, List.pairwise_map] at numbers ⊢
  exact numbers.imp fun other same => other (fileName_inj same)

end ImageInput

namespace EditCommand

theorem inputs_addImages (c : Command) (images : List ImageInput) :
    (addImages c images).inputs = c.inputs ++ images.map fun i => ⟨[], i.fileName⟩ := by
  induction images generalizing c with
  | nil => simp [addImages]
  | cons i rest ih =>
    have tail := ih (c.addInput i.fileName)
    simpa [addImages, Command.addInput] using tail

theorem inputs_toCommand (e : EditCommand) : e.toCommand.inputs =
    (e.source :: e.images.map (·.fileName)).map fun path => ⟨[], path⟩ := by
  have added : e.toCommand.inputs =
      (addImages (Command.ofPaths e.source e.output) e.images).inputs := by
    simp only [toCommand]
    split <;> rfl
  rw [added, inputs_addImages]
  simp [Command.ofPaths]

/-- The first inputs are found in the arguments as they are, whatever follows them. -/
theorem inputValues_arguments (e : EditCommand) : ∃ others,
    inputValues e.arguments = e.source :: e.images.map (·.fileName) ++ others := by
  rw [arguments, Command.arguments, inputs_toCommand, List.append_assoc, inputValues_inputs]
  exact ⟨_, rfl⟩

end EditCommand

theorem Edit.names_of_valid {e : Edit} (valid : e.validate = .ok ()) (o : AssemblyOptions) :
    e.names o =
      let source := Naming.source e.format e.source.fileName
      let output := Naming.output source o.suffix e.format
      if output = source then
        .error (.internal ("output name " ++ output ++ " would overwrite the source"))
      else .ok (source, output) := by
  simp only [names, valid, Except.mapError, bind, Except.bind]
  split
  · rfl
  · rfl

theorem Edit.names_eq_ok_iff {e : Edit} {o : AssemblyOptions} {source output : String} :
    e.names o = .ok (source, output) ↔ e.validate = .ok () ∧
      source = Naming.source e.format e.source.fileName ∧
      output = Naming.output source o.suffix e.format ∧ output ≠ source := by
  constructor
  · intro h
    have valid : e.validate = .ok () := by
      rw [names, check_bind_eq_ok_iff, mapError_eq_ok_iff] at h
      exact h.1
    simp only [names_of_valid valid] at h
    split at h
    · cases h
    · rename_i other
      cases h
      exact ⟨valid, rfl, rfl, other⟩
  · rintro ⟨valid, rfl, rfl, other⟩
    rw [names_of_valid valid]
    exact if_neg other

theorem Edit.valid_of_names {e : Edit} {o : AssemblyOptions} {names : String × String}
    (h : e.names o = .ok names) : e.validate = .ok () :=
  (names_eq_ok_iff.1 h).1

theorem Edit.value_assemble_eq_ok_iff {e : Edit} {o : AssemblyOptions} {c : EditCommand} :
    (e.assemble o).value = .ok c ↔ ∃ source output graph, e.names o = .ok (source, output) ∧
      (Filter.compile o.fontDir (ImageInput.ofOverlays e.images) e.texts).value = .ok graph ∧
      c = ⟨source, ImageInput.ofOverlays e.images, graph, e.trim, e.format, output⟩ := by
  simp only [assemble]
  split
  · rename_i failed
    simp [failed]
  · rename_i source output named
    split
    · rename_i failed
      simp [failed]
    · rename_i graph metrics compiled
      simp only [named, compiled, Except.ok.injEq, Prod.mk.injEq]
      constructor
      · rintro rfl
        exact ⟨_, _, _, ⟨rfl, rfl⟩, rfl, rfl⟩
      · rintro ⟨_, _, _, ⟨rfl, rfl⟩, rfl, rfl⟩
        rfl

theorem Edit.value_assemble_eq_error_iff {e : Edit} {o : AssemblyOptions} {err : RenderError} :
    (e.assemble o).value = .error err ↔ e.names o = .error err ∨
      (∃ names, e.names o = .ok names) ∧
        Filter.graphOf o.fontDir (ImageInput.ofOverlays e.images) e.texts = .error err := by
  rw [← Filter.value_compile]
  simp only [assemble]
  split
  · rename_i failed
    simp [failed]
  · rename_i named
    split
    · rename_i failed
      simp [named, failed]
    · rename_i compiled
      simp [named, compiled]

structure Edit.IsCommand (e : Edit) (o : AssemblyOptions) (c : EditCommand) : Prop where
  valid : e.validate = .ok ()
  source : c.source = Naming.source e.format e.source.fileName
  output : c.output = Naming.output c.source o.suffix e.format
  apart : c.output ≠ c.source
  images : c.images = ImageInput.ofOverlays e.images
  graph : Filter.graphOf o.fontDir (ImageInput.ofOverlays e.images) e.texts = .ok c.graph
  trim : c.trim = e.trim
  format : c.format = e.format

theorem Edit.isCommand_of_assemble {e : Edit} {o : AssemblyOptions} {c : EditCommand}
    (h : (e.assemble o).value = .ok c) : e.IsCommand o c := by
  obtain ⟨source, output, graph, named, compiled, rfl⟩ := value_assemble_eq_ok_iff.1 h
  obtain ⟨valid, source, output, apart⟩ := names_eq_ok_iff.1 named
  exact ⟨valid, source, output, apart, rfl, Filter.value_compile_eq_ok_iff.1 compiled, rfl, rfl⟩

end Montage
