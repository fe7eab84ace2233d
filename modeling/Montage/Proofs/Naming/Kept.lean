import Montage.Proofs.Naming

/-! Safe names. The source of a run always gets one, and a name that is safe already is kept, whatever
directory it stands in. -/
namespace Montage.Naming

variable {name path : List Char}

/-- A name that means itself wherever it is written: no shell, no option and no path is read into it,
and it is not that of an overlay image. -/
structure IsSafe (name : List Char) : Prop where
  characters : ∀ c ∈ name, c.isAlphanum = true ∨ c = '.' ∨ c = '_' ∨ c = '-'
  dash : name.head? ≠ some '-'
  reserved : ¬ "overlay".toList <+: name
  lettered : ∃ c ∈ name, c ≠ '_' ∧ c ≠ '.'
  nonempty : name ≠ []

theorem isNameChar_iff {c : Char} :
    isNameChar c = true ↔ c.isAlphanum = true ∨ c = '.' ∨ c = '_' ∨ c = '-' := by
  simp only [isNameChar, Bool.or_eq_true, decide_eq_true_eq, or_assoc, or_comm (a := c = '-')]

theorem isFilling_eq_false_iff : isFilling name = false ↔ ∃ c ∈ name, c ≠ '_' ∧ c ≠ '.' := by
  simp [isFilling, List.all_eq_false]

theorem isSourceName_iff_isSafe : IsSourceName name ↔ IsSafe name := by
  constructor
  · intro h
    exact {
      characters := fun c among => isNameChar_iff.1 (h.characters c among)
      dash := h.dash
      reserved := fun reserved =>
        Bool.eq_false_iff.1 h.reserved (List.isPrefixOf_iff_prefix.2 reserved)
      lettered := isFilling_eq_false_iff.1 h.lettered
      nonempty := h.isName.nonempty }
  · intro h
    exact {
      characters := fun c among => isNameChar_iff.2 (h.characters c among)
      lettered := isFilling_eq_false_iff.2 h.lettered
      dash := h.dash
      reserved := Bool.eq_false_iff.2 fun reserved =>
        h.reserved (List.isPrefixOf_iff_prefix.1 reserved) }

theorem withoutDash_of_head? (h : name.head? ≠ some '-') : withoutDash name = name := by
  unfold withoutDash
  split
  · exact absurd rfl h
  · rfl

theorem cleaned_of_isSourceName (h : IsSourceName name) : cleaned name = name := by
  have same : name.map (fun c => if isNameChar c then c else '_') = name := by
    conv_rhs => rw [← List.map_id name]
    exact List.map_congr_left fun c among => if_pos (h.characters c among)
  rw [cleaned, same, withoutDash_of_head? h.dash]

theorem sourceChars_of_fileName? (h : IsSourceName name) (last : Path.fileName? path = some name)
    (format : Format) : sourceChars format path = name := by
  have filling : ¬ isFilling name = true := by simp [h.lettered]
  have image : ¬ imageStem.isPrefixOf name = true := by simp [h.reserved]
  rw [sourceChars, last, Option.getD_some, cleaned_of_isSourceName h, if_neg filling, if_neg image]

/-- Just the safe names are kept. -/
theorem sourceChars_eq_self_iff {format : Format} :
    sourceChars format name = name ↔ IsSourceName name := by
  constructor
  · intro kept
    exact kept ▸ isSourceName_sourceChars format name
  · intro h
    exact sourceChars_of_fileName? h (Path.fileName?_of_isName h.isName) format

/-- A source is given a safe name. A safe name is kept, and found again below any directory. -/
theorem source_names_are_safe_and_kept (format : Format) :
    (∀ path, IsSafe (source format path).toList) ∧
      (∀ path, source format (source format path) = source format path) ∧
      ∀ name : String, IsSafe name.toList →
        source format name = name ∧ ∀ directory, source format (directory ++ "/" ++ name) = name := by
  have safe : ∀ path, IsSourceName (source format path).toList := isSourceName_source format
  have kept : ∀ name : String, IsSourceName name.toList → source format name = name := by
    intro name h
    rw [source, sourceChars_eq_self_iff.2 h, String.ofList_toList]
  refine ⟨fun path => isSourceName_iff_isSafe.1 (safe path), fun path => kept _ (safe path), ?_⟩
  intro name h
  have named := isSourceName_iff_isSafe.2 h
  refine ⟨kept name named, fun directory => ?_⟩
  have last : Path.fileName? (directory ++ "/" ++ name).toList = some name.toList := by
    simpa using Path.fileName?_append named.isName directory.toList
  rw [source, sourceChars_of_fileName? named last format, String.ofList_toList]

theorem trailer_is_kept : IsSafe "_trailer-2.final.mov".toList ∧
    source .webm "_trailer-2.final.mov" = "_trailer-2.final.mov" ∧
    source .webm ("../-tmp/./é" ++ "/" ++ "_trailer-2.final.mov") = "_trailer-2.final.mov" := by
  have safe : IsSafe "_trailer-2.final.mov".toList := isSourceName_iff_isSafe.1 {
    characters := Text.forall_mem_of_all (by decide)
    lettered := rfl
    dash := by decide
    reserved := rfl }
  obtain ⟨alone, placed⟩ := (source_names_are_safe_and_kept .webm).2.2 "_trailer-2.final.mov" safe
  exact ⟨safe, alone, placed "../-tmp/./é"⟩

end Montage.Naming
