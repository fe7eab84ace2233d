import Mathlib.Logic.Function.Iterate
import Mathlib.Order.Monotone.Defs
import Montage.Program.Basic
import Montage.Proofs.Naming
import Montage.Proofs.Path.Sibling

/-! Outputs that are sources again. An output keeps the stem of its source and adds to it, so the suffixes
of a chain of edits gather in the name and no edit writes over what it was made from. -/
namespace Montage
namespace Naming

section
variable {source suffix more : List Char}

theorem stem?_outputChars (source : List Char) (single : '/' ∉ suffix) (format : Format) :
    Path.stem? (outputChars source suffix format) =
      some ((Path.stem? source).getD "output".toList ++ suffix) := by
  have pointless : '.' ∉ format.extension.toList := by cases format <;> decide
  obtain ⟨name, named, stem⟩ := exists_stemOf source
  have nonempty : Path.stemOf name ++ suffix ≠ [] :=
    List.append_ne_nil_of_left_ne_nil (Path.stemOf_ne_nil named.nonempty) suffix
  rw [Path.stem?_of_isName (isName_outputChars source single format), outputChars, stem,
    Path.stemOf_append pointless, if_neg nonempty]

theorem outputChars_outputChars (single : '/' ∉ suffix) (first format : Format) :
    outputChars (outputChars source suffix first) more format =
      outputChars source (suffix ++ more) format := by
  rw [outputChars, stem?_outputChars source single, Option.getD_some, outputChars,
    List.append_assoc _ suffix more]

end

def stem (source : String) : String :=
  String.ofList ((Path.stem? source.toList).getD "output".toList)

variable {source suffix more : String}

theorem output_eq (source suffix : String) (format : Format) :
    output source suffix format = stem source ++ suffix ++ "." ++ format.extension := by
  apply String.toList_injective
  simp [toList_output, outputChars, stem]

/-- An output of an output is an output of the first source, by both suffixes. -/
theorem output_output (single : '/' ∉ suffix.toList) (first format : Format) :
    output (output source suffix first) more format = output source (suffix ++ more) format := by
  apply String.toList_injective
  simp only [toList_output, String.toList_append, outputChars_outputChars single]

theorem output_ne (nonempty : suffix ≠ "") (single : '/' ∉ suffix.toList) (format : Format) :
    output source suffix format ≠ source := by
  intro same
  have texts : outputChars source.toList suffix.toList format = source.toList := by
    rw [← toList_output, same]
  have named : Path.IsName source.toList := texts ▸ isName_outputChars source.toList single format
  exact outputChars_ne named (by simpa using nonempty) format texts

theorem iterate_output (source : String) (single : '/' ∉ suffix.toList) (format : Format) (n : Nat) :
    (output · suffix format)^[n + 1] source =
      output source (String.join (List.replicate (n + 1) suffix)) format := by
  induction n generalizing source with
  | zero => simp
  | succ n ih =>
    rw [Function.iterate_succ_apply, ih, output_output single, ← String.join_cons,
      ← List.replicate_succ]

/-- No chain of outputs comes back to a name it has been at. -/
theorem injective_iterate_output (source : String) (nonempty : suffix ≠ "")
    (single : '/' ∉ suffix.toList) (format : Format) :
    Function.Injective fun n => (output · suffix format)^[n] source := by
  apply Function.Injective.of_lt_imp_ne
  intro before after earlier same
  obtain ⟨n, rfl⟩ := Nat.exists_eq_add_of_lt earlier
  have gathered : String.join (List.replicate (n + 1) suffix) ≠ "" := by
    simp [List.replicate_succ, nonempty]
  have free : '/' ∉ (String.join (List.replicate (n + 1) suffix)).toList := by
    simp [String.toList_join, single]
  have again : (output · suffix format)^[n + 1] ((output · suffix format)^[before] source) =
      (output · suffix format)^[before] source := by
    rw [← Function.iterate_add_apply, Nat.add_comm, ← Nat.add_assoc]
    exact same.symm
  rw [iterate_output _ single] at again
  exact output_ne gathered free format again

end Naming

namespace Program

variable {input : String} {name : List Char}

/-- The output of a preset is named like any other output of its input. -/
theorem presetOutput_eq (h : Path.fileName? input.toList = some name) (p : Preset) :
    (presetOutput input p).toList =
      Path.withFileName input.toList (Naming.outputChars name ("-" ++ p.name).toList .mp4) := by
  have stem : Path.stem? input.toList = Path.stem? name := by
    rw [Path.stem?_of_isName (Path.isName_of_fileName? h), Path.stem?, h, Option.map_some]
  simp only [presetOutput, String.toList_ofList, Naming.outputChars, stem, List.append_assoc,
    String.toList_append]
  rfl

end Program

/-- Editing an output again only adds to its name: after any number of edits it is the stem of the first
source with as many suffixes, so every file of such a chain has a name of its own. A preset names its
output likewise and puts it beside its input. -/
theorem outputs_lead_away_from_their_source :
    (∀ (source suffix : String) (format : Format), suffix ≠ "" → '/' ∉ suffix.toList →
      (∀ n, 1 ≤ n → (Naming.output · suffix format)^[n] source =
        Naming.stem source ++ String.join (List.replicate n suffix) ++ "." ++ format.extension) ∧
      Function.Injective fun n => (Naming.output · suffix format)^[n] source) ∧
    ∀ (input : String) (p : Preset) (name : List Char), Path.fileName? input.toList = some name →
      (∃ directory, Path.parent? input.toList = some directory ∧
        Path.parent? (Program.presetOutput input p).toList = some directory) ∧
      Path.fileName? (Program.presetOutput input p).toList =
        some (Naming.output (String.ofList name) ("-" ++ p.name) .mp4).toList ∧
      Path.components (Program.presetOutput input p).toList ≠ Path.components input.toList := by
  constructor
  · intro source suffix format nonempty single
    refine ⟨fun n many => ?_, Naming.injective_iterate_output source nonempty single format⟩
    obtain ⟨n, rfl⟩ := Nat.exists_eq_add_of_le' many
    rw [Naming.iterate_output source single, Naming.output_eq]
  · intro input p name last
    have single : '/' ∉ ("-" ++ p.name).toList := by cases p <;> decide
    have named := Path.isName_of_fileName? last
    obtain ⟨directory, before, after, ends⟩ := Path.withFileName_of_fileName? last
      (Naming.isName_outputChars name single .mp4)
    rw [← Program.presetOutput_eq last p] at after ends
    refine ⟨⟨directory, before, after⟩, ?_, ?_⟩
    · rw [ends, Naming.toList_output, String.toList_ofList]
    · intro same
      have lasts := (Path.fileName?_eq_some_iff.1 ends).1
      rw [same, (Path.fileName?_eq_some_iff.1 last).1, Option.some.injEq] at lasts
      exact Naming.outputChars_ne named (by simp) .mp4 lasts.symm

theorem chain_of_clips_and_preset :
    (".1" ≠ "" ∧ '/' ∉ ".1".toList ∧
      (Naming.output · ".1" .webm)^[3] ".clip..mov" = ".clip..1.1.1.webm") ∧
    Path.fileName? "/videos//trip.mov/.".toList = some "trip.mov".toList ∧
      Path.fileName? (Program.presetOutput "/videos//trip.mov/." .twitter).toList =
        some "trip-twitter.mp4".toList := by
  have nonempty : ".1" ≠ "" := by decide
  have single : '/' ∉ ".1".toList := by decide
  have last : Path.fileName? "/videos//trip.mov/.".toList = some "trip.mov".toList := by decide
  obtain ⟨chains, presets⟩ := outputs_lead_away_from_their_source
  have third := (chains ".clip..mov" ".1" .webm nonempty single).1 3 (by decide)
  have named := (presets "/videos//trip.mov/." .twitter "trip.mov".toList last).2.1
  refine ⟨⟨nonempty, single, third.trans ?_⟩, last, named.trans ?_⟩
  · decide
  · decide

end Montage
