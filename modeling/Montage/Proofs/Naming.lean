import Mathlib.Data.List.Basic
import Montage.Command.Naming
import Montage.Proofs.Path

/-! Names within a run. A source is named by safe characters, never like an option and never like an
overlay image. Its output is named after it: it begins as the source does, ends in the extension of its
format, and differs from the source unless nothing is added to the stem. -/
namespace Montage

theorem Format.length_extension (f : Format) : 3 ≤ f.extension.toList.length := by
  cases f <;> decide

theorem Format.extension_inj {f g : Format} (h : f.extension = g.extension) : f = g := by
  cases f <;> cases g <;> first | rfl | exact absurd h (by decide)

/-- No video is named like a picture. -/
theorem Format.getLast?_extension (f : Format) : f.extension.toList.getLast? ≠ some 'g' := by
  cases f <;> decide

theorem Format.slash_not_mem_extension (f : Format) : '/' ∉ f.extension.toList := by
  cases f <;> decide

namespace Naming

structure IsSourceName (name : List Char) : Prop where
  characters : ∀ c ∈ name, isNameChar c = true
  lettered : isFilling name = false
  dash : name.head? ≠ some '-'
  reserved : imageStem.isPrefixOf name = false

theorem isNameChar_withoutDash {cs : List Char} (h : ∀ c ∈ cs, isNameChar c = true) :
    ∀ c ∈ withoutDash cs, isNameChar c = true := by
  unfold withoutDash
  split
  · rw [List.forall_mem_cons] at h ⊢
    exact ⟨by decide, h.2⟩
  · exact h

theorem isNameChar_cleaned (cs : List Char) : ∀ c ∈ cleaned cs, isNameChar c = true := by
  apply isNameChar_withoutDash
  intro c hc
  obtain ⟨d, -, rfl⟩ := List.mem_map.1 hc
  by_cases safe : isNameChar d = true
  · rw [if_pos safe, safe]
  · rw [if_neg safe]
    decide

theorem head?_withoutDash (cs : List Char) : (withoutDash cs).head? ≠ some '-' := by
  unfold withoutDash
  split
  · simp
  · rename_i other
    intro first
    obtain ⟨rest, rfl⟩ := List.head?_eq_some_iff.1 first
    exact other rest rfl

theorem isSourceName_fallback (format : Format) :
    IsSourceName ("source.".toList ++ format.extension.toList) where
  characters := Text.forall_mem_of_all (by cases format <;> decide)
  lettered := rfl
  dash := by simp
  reserved := rfl

theorem IsSourceName.kept_apart {name : List Char} (h : ∀ c ∈ name, isNameChar c = true) :
    IsSourceName ("source-".toList ++ name) where
  characters := List.forall_mem_append.2 ⟨Text.forall_mem_of_all (by decide), h⟩
  lettered := rfl
  dash := by simp
  reserved := rfl

theorem isSourceName_sourceChars (format : Format) (path : List Char) :
    IsSourceName (sourceChars format path) := by
  have safe := isNameChar_cleaned ((Path.fileName? path).getD [])
  simp only [sourceChars]
  split
  · exact isSourceName_fallback format
  · rename_i lettered
    split
    · exact .kept_apart safe
    · rename_i other
      exact ⟨safe, Bool.not_eq_true _ ▸ lettered, head?_withoutDash _, Bool.not_eq_true _ ▸ other⟩

theorem isSourceName_source (format : Format) (path : String) :
    IsSourceName (source format path).toList := by
  rw [source, String.toList_ofList]
  exact isSourceName_sourceChars format path.toList

theorem IsSourceName.isName {name : List Char} (h : IsSourceName name) : Path.IsName name where
  nonempty := by
    rintro rfl
    cases h.lettered
  slash := fun found => absurd (h.characters '/' found) (by decide)
  here := by
    rintro rfl
    cases h.lettered
  above := by
    rintro rfl
    cases h.lettered

theorem toList_output (source suffix : String) (format : Format) :
    (output source suffix format).toList = outputChars source.toList suffix.toList format :=
  String.toList_ofList

section
variable {source suffix : List Char}

theorem outputChars_of_isName (h : Path.IsName source) (suffix : List Char) (format : Format) :
    outputChars source suffix format =
      Path.stemOf source ++ (suffix ++ '.' :: format.extension.toList) := by
  rw [outputChars, Path.stem?_of_isName h, Option.getD_some, List.append_assoc]

theorem head?_outputChars (h : Path.IsName source) (suffix : List Char) (format : Format) :
    (outputChars source suffix format).head? = source.head? := by
  obtain ⟨c, stem, begins⟩ := List.exists_cons_of_ne_nil (Path.stemOf_ne_nil h.nonempty)
  obtain ⟨rest, whole⟩ := Path.stemOf_prefix source
  rw [begins] at whole
  rw [outputChars_of_isName h, begins, ← whole]
  rfl

theorem getLast?_outputChars (source suffix : List Char) (format : Format) :
    (outputChars source suffix format).getLast? = format.extension.toList.getLast? := by
  have nonempty : format.extension.toList ≠ [] := by
    intro empty
    have length := format.length_extension
    rw [empty] at length
    cases length
  rw [outputChars, List.getLast?_append_of_ne_nil _ (List.cons_ne_nil _ _), ← List.singleton_append,
    List.getLast?_append_of_ne_nil _ nonempty]

/-- The stem that an output begins with is that of a name, also where its source names nothing. -/
theorem exists_stemOf (source : List Char) :
    ∃ name, Path.IsName name ∧ (Path.stem? source).getD "output".toList = Path.stemOf name := by
  cases stem : Path.stem? source with
  | none => exact ⟨"output".toList, ⟨by decide, by decide, by decide, by decide⟩, rfl⟩
  | some chars =>
    obtain ⟨name, last, rfl⟩ := Option.map_eq_some_iff.1 stem
    exact ⟨name, Path.isName_of_fileName? last, rfl⟩

theorem isName_outputChars (source : List Char) (single : '/' ∉ suffix) (format : Format) :
    Path.IsName (outputChars source suffix format) := by
  have long : 4 ≤ (outputChars source suffix format).length := by
    have length := format.length_extension
    simp only [outputChars, List.length_append, List.length_cons]
    omega
  obtain ⟨name, named, stem⟩ := exists_stemOf source
  have free : '/' ∉ Path.stemOf name :=
    fun found => named.slash ((Path.stemOf_prefix name).subset found)
  refine ⟨?_, ?_, ?_, ?_⟩
  · intro empty
    simp [empty] at long
  · simp only [outputChars, stem, List.mem_append, List.mem_cons, not_or]
    exact ⟨⟨free, single⟩, by decide, format.slash_not_mem_extension⟩
  · intro here
    simp [here] at long
  · intro above
    simp [above] at long

theorem outputChars_ne (h : Path.IsName source) (nonempty : suffix ≠ []) (format : Format) :
    outputChars source suffix format ≠ source := by
  rw [outputChars_of_isName h]
  intro same
  rcases Path.stemOf_eq_self_or source with stem | ⟨-, last, whole, pointless⟩
  · rw [stem] at same
    have length := congrArg List.length same
    simp at length
  · have ends : suffix ++ '.' :: format.extension.toList = '.' :: last :=
      List.append_cancel_left (same.trans whole)
    cases suffix with
    | nil => exact nonempty rfl
    | cons c rest =>
      have tails : rest ++ '.' :: format.extension.toList = last := (List.cons.inj ends).2
      apply pointless
      rw [← tails]
      simp

end

end Naming
end Montage
