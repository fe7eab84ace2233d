import Montage.Proofs.Command
import Montage.Proofs.Graph.Integrity
import Montage.Proofs.Naming

/-! The arguments of the command of an edit: inputs, graph, trim and output, in this order and nothing
else. No value among them can be read as an option, since none begins with a dash, and every number is
written as a plain decimal. -/
namespace Montage

open Timestamp (formatSeconds)

def imageNames (n : Nat) : List String :=
  (List.range' 1 n).map fun k => "overlay" ++ Numeral.text k ++ ".png"

def asInputs (names : List String) : List String := names.flatMap fun name => ["-i", name]

theorem ImageInput.map_fileName_ofOverlays (images : List ImageOverlay) :
    (ofOverlays images).map fileName = imageNames images.length := by
  rw [imageNames, ← map_index_ofOverlays, List.map_map]
  rfl

namespace Filter

def Statement.numbers : Statement → List Binary64
  | scale _ _ size => [size.width, size.height]
  | overlay _ _ position gate _ => [position.x, position.y, gate.start, gate.stop]
  | drawText _ _ _ _ _ position gate _ => [position.x, position.y, gate.start, gate.stop]

theorem Statement.IsClean.finite_numbers {s : Statement} (h : s.IsClean) :
    ∀ x ∈ s.numbers, x.isFinite = true := by
  cases s with
  | scale =>
    obtain ⟨width, height⟩ := h
    simp [numbers, width, height]
  | overlay =>
    obtain ⟨x, y, start, stop⟩ := h
    simp [numbers, x, y, start, stop]
  | drawText =>
    obtain ⟨-, -, -, x, y, start, stop⟩ := h
    simp [numbers, x, y, start, stop]

theorem Statement.head?_text (s : Statement) : s.text.toList.head? = some '[' := by
  have first : ∀ (p : Pad) (rest : List Char), (p.bracketed.toList ++ rest).head? = some '[' := by
    intro p rest
    rw [p.toList_bracketed]
    rfl
  rw [toList_text, List.append_assoc]
  cases s <;> simp only [inputPads, padTexts, List.flatMap_cons, List.append_assoc, first]

theorem Graph.head?_text {g : Graph} (nonempty : g.isEmpty = false) :
    g.text.toList.head? = some '[' := by
  rw [g.toList_text]
  obtain ⟨statements⟩ := g
  cases statements with
  | nil => cases nonempty
  | cons s rest =>
    have first := s.head?_text
    cases rest with
    | nil => simpa using first
    | cons t rest =>
      rw [List.map_cons, List.map_cons, List.intercalate_cons_cons, List.append_assoc,
        List.head?_append, first]
      rfl

theorem isEmpty_of_graphOf {fontDir : String} {images : List ImageInput} {texts : List TextOverlay}
    {g : Graph} (h : graphOf fontDir images texts = .ok g) :
    g.isEmpty = true ↔ images.length + texts.length = 0 := by
  obtain ⟨-, letters, lettered, statements⟩ := graphOf_eq_ok_iff.1 h
  have length := length_drawing images letters
  rw [Graph.isEmpty, statements, List.isEmpty_iff, ← List.length_eq_zero_iff, length,
    lettered.length_eq]
  omega

end Filter

namespace EditCommand

def shownNumbers (c : EditCommand) : List Binary64 :=
  [c.trim.start, c.trim.stop] ++ c.graph.statements.flatMap Filter.Statement.numbers

theorem output_addImages (c : Command) (images : List ImageInput) :
    (addImages c images).outputOptions = c.outputOptions ∧ (addImages c images).output = c.output ∧
      (addImages c images).overwrite = c.overwrite := by
  induction images generalizing c with
  | nil => exact ⟨rfl, rfl, rfl⟩
  | cons i rest ih => exact ih (c.addInput i.fileName)

theorem output_toCommand (e : EditCommand) :
    e.toCommand.outputOptions = (if e.graph.isEmpty then [] else ["-filter_complex", e.graph.text]) ++
        ["-ss", formatSeconds e.trim.start, "-to", formatSeconds e.trim.stop] ∧
      e.toCommand.output = e.output ∧ e.toCommand.overwrite = true := by
  obtain ⟨options, output, overwrite⟩ :=
    output_addImages (Command.ofPaths e.source e.output) e.images
  simp only [toCommand]
  split
  · refine ⟨?_, output, overwrite⟩
    simp only [Command.startAt, Command.stopAt, Command.addOutputOptions, options]
    rfl
  · refine ⟨?_, output, overwrite⟩
    simp only [Command.startAt, Command.stopAt, Command.filterGraph, Command.addOutputOptions, options]
    rfl

theorem flatMap_inputArguments (paths : List String) :
    (paths.map fun path => (⟨[], path⟩ : CommandInput)).flatMap Command.inputArguments =
      asInputs paths := by
  rw [List.flatMap_map]
  rfl

theorem arguments_eq (e : EditCommand) :
    e.arguments = asInputs (e.source :: e.images.map (·.fileName)) ++
      (if e.graph.isEmpty then [] else ["-filter_complex", e.graph.text]) ++
        ["-ss", formatSeconds e.trim.start, "-to", formatSeconds e.trim.stop, e.output] := by
  obtain ⟨options, output, -⟩ := e.output_toCommand
  rw [arguments, Command.arguments, inputs_toCommand, flatMap_inputArguments, options, output]
  simp only [List.append_assoc, List.cons_append, List.nil_append]

theorem runArguments_withLogLevel (e : EditCommand) (level : String) :
    (e.toCommand.withLogLevel level).runArguments =
      ["-y", "-v", level, "-progress", "pipe:2"] ++ e.arguments := by
  obtain ⟨-, -, overwrite⟩ := e.output_toCommand
  simp only [Command.runArguments, Command.withLogLevel, overwrite, if_true]
  rfl

end EditCommand

namespace Edit.IsCommand

variable {e : Edit} {o : AssemblyOptions} {c : EditCommand}

theorem isPart (h : e.IsCommand o c) : c.trim.IsPart := by
  rw [h.trim, ← TrimRange.validate_eq_ok_iff]
  exact (validate_eq_ok_iff.1 h.valid).1

theorem isSourceName (h : e.IsCommand o c) : Naming.IsSourceName c.source.toList := by
  rw [h.source]
  exact Naming.isSourceName_source _ _

theorem toList_output (h : e.IsCommand o c) :
    c.output.toList = Naming.outputChars c.source.toList o.suffix.toList e.format := by
  rw [h.output, Naming.toList_output]

theorem isEmpty_graph (h : e.IsCommand o c) : c.graph.isEmpty = true ↔ e.overlayCount = 0 := by
  rw [Filter.isEmpty_of_graphOf h.graph, ImageInput.length_ofOverlays, overlayCount]

theorem fileNames (h : e.IsCommand o c) : c.images.map (·.fileName) = imageNames e.images.length := by
  rw [h.images, ImageInput.map_fileName_ofOverlays]

theorem finite_shownNumbers (h : e.IsCommand o c) : ∀ x ∈ c.shownNumbers, x.isFinite = true := by
  have clean := Filter.isClean_of_graphOf h.graph
  intro x hx
  rcases List.mem_append.1 hx with hx | hx
  · have part := h.isPart
    rcases List.mem_pair.1 hx with rfl | rfl
    · exact part.finite_start
    · exact part.finite_stop
  · obtain ⟨s, hs, shown⟩ := List.mem_flatMap.1 hx
    exact (clean s hs).finite_numbers x shown

end Edit.IsCommand

theorem head?_of_mem_imageNames {n : Nat} {name : String} (h : name ∈ imageNames n) :
    name.toList.head? = some 'o' := by
  obtain ⟨k, -, rfl⟩ := List.mem_map.1 h
  simp only [String.toList_append]
  rfl

theorem arguments_have_contract_shape (e : Edit) (o : AssemblyOptions) (c : EditCommand)
    (assembled : (e.assemble o).value = .ok c) :
    c.arguments = ["-i", c.source] ++ asInputs (imageNames e.images.length) ++
      (if e.overlayCount = 0 then [] else ["-filter_complex", c.graph.text]) ++
      ["-ss", formatSeconds e.trim.start, "-to", formatSeconds e.trim.stop, c.output] ∧
    (∀ level, (c.toCommand.withLogLevel level).runArguments =
      ["-y", "-v", level, "-progress", "pipe:2"] ++ c.arguments) ∧
    (∀ value ∈ [c.source] ++ imageNames e.images.length ++
        (if e.overlayCount = 0 then [] else [c.graph.text]) ++
        [formatSeconds e.trim.start, formatSeconds e.trim.stop, c.output],
      value.toList.head? ≠ some '-') ∧
    ∀ x ∈ c.shownNumbers, IsPlainDecimal (formatSeconds x).toList := by
  have command := e.isCommand_of_assemble assembled
  have part := command.trim ▸ command.isPart
  have source := command.isSourceName
  refine ⟨?_, c.runArguments_withLogLevel, ?_, ?_⟩
  · simp only [c.arguments_eq, command.fileNames, command.isEmpty_graph, command.trim]
    rfl
  · simp only [List.forall_mem_append, List.forall_mem_cons, List.not_mem_nil, false_imp_iff,
      implies_true, and_true]
    refine ⟨⟨⟨source.dash, ?_⟩, ?_⟩, ?_, ?_, ?_⟩
    · intro name found
      simp [head?_of_mem_imageNames found]
    · split
      · simp
      · rename_i drawn
        have nonempty : c.graph.isEmpty = false :=
          Bool.not_eq_true _ ▸ mt command.isEmpty_graph.1 drawn
        simp [Filter.Graph.head?_text nonempty]
    · exact (Timestamp.formatSeconds_isUnsignedDecimal part.finite_start part.above).head?_ne
    · exact (Timestamp.formatSeconds_isUnsignedDecimal part.finite_stop part.stop_above).head?_ne
    · rw [command.toList_output, Naming.head?_outputChars source.isName]
      exact source.dash
  · intro x shown
    exact Timestamp.formatSeconds_isPlainDecimal (command.finite_shownNumbers x shown)

/-- An edit whose source would be read as an option under the name it came with. -/
def Edit.dashed : Edit where
  trim := ⟨0, 5⟩
  images := [.photo]
  texts := [.caption]
  source := { asset := "clip", fileName := "uploads/-y my clip.mp4" }

theorem dashed_arguments_in_shape :
    ∃ c, (Edit.dashed.assemble {}).value = .ok c ∧
      c.arguments = ["-i", c.source, "-i", "overlay1.png", "-filter_complex", c.graph.text, "-ss", "0",
        "-to", "5", c.output] ∧
      c.source.toList.head? ≠ some '-' ∧ c.output.toList.head? ≠ some '-' := by
  obtain ⟨c, assembled⟩ : ∃ c, (Edit.dashed.assemble {}).value = .ok c :=
    exists_eq_ok_of_isSome (by decide +kernel)
  obtain ⟨arguments, -, values, -⟩ := arguments_have_contract_shape Edit.dashed {} c assembled
  have texts : formatSeconds Edit.dashed.trim.start = "0" ∧
      formatSeconds Edit.dashed.trim.stop = "5" ∧ imageNames 1 = ["overlay1.png"] := by decide +kernel
  refine ⟨c, assembled, ?_, values _ (by simp), values _ (by simp)⟩
  rw [arguments, texts.1, texts.2.1]
  simp [Edit.dashed, Edit.overlayCount, texts.2.2, asInputs]

end Montage
