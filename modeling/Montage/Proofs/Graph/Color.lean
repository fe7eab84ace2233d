import Montage.Proofs.Binary64.Language
import Montage.Proofs.Graph.Integrity

/-! The language of colors. A check accepts just its texts, and none of these holds a character that one
of the three readers of a text takes for a sign. -/
namespace Montage.Filter

open Binary64 (IsNumber readChars?_eq_some_iff)

inductive IsColorBase : List Char → Prop where
  | name {cs : List Char} : cs ≠ [] → (∀ c ∈ cs, c.isAlpha = true) → IsColorBase cs
  | code {mark ds : List Char} : mark ∈ [['#'], ['0', 'x'], ['0', 'X']] →
      ds.length = 6 ∨ ds.length = 8 → (∀ c ∈ ds, c ∈ hexDigits) → IsColorBase (mark ++ ds)

def IsUnit (cs : List Char) : Prop :=
  ∃ x units, IsNumber cs x ∧ x.rank? = some units ∧ 0 ≤ units ∧ units ≤ Binary64.one

/-- The texts of colors. A number behind the first `@` tells how transparent they are. -/
inductive IsColorText : List Char → Prop where
  | solid {base : List Char} : '@' ∉ base → IsColorBase base → IsColorText base
  | faded {base alpha : List Char} : '@' ∉ base → IsColorBase base → IsUnit alpha →
      IsColorText (base ++ '@' :: alpha)

theorem isBaseColor_iff {cs : List Char} : isBaseColor cs = true ↔ IsColorBase cs := by
  have code {ds : List Char} : ((ds.length = 6 || ds.length = 8) && ds.all isHexDigit) = true ↔
      (ds.length = 6 ∨ ds.length = 8) ∧ ∀ c ∈ ds, c ∈ hexDigits := by
    simp [isHexDigit_iff]
  constructor
  · intro h
    simp only [isBaseColor] at h
    split at h
    · obtain ⟨length, hex⟩ := code.1 h
      change IsColorBase (['#'] ++ _)
      exact .code (by simp) length hex
    · obtain ⟨length, hex⟩ := code.1 h
      change IsColorBase (['0', 'x'] ++ _)
      exact .code (by simp) length hex
    · obtain ⟨length, hex⟩ := code.1 h
      change IsColorBase (['0', 'X'] ++ _)
      exact .code (by simp) length hex
    · rw [Bool.and_eq_true, decide_eq_true_eq, List.all_eq_true] at h
      exact .name h.1 h.2
  · intro h
    cases h with
    | name nonempty letters =>
      simp only [isBaseColor]
      split
      · cases letters '#' List.mem_cons_self
      · cases letters '0' List.mem_cons_self
      · cases letters '0' List.mem_cons_self
      · rw [Bool.and_eq_true, decide_eq_true_eq, List.all_eq_true]
        exact ⟨nonempty, letters⟩
    | code mark length hex =>
      simp only [List.mem_cons, List.not_mem_nil, or_false] at mark
      rcases mark with rfl | rfl | rfl <;> exact code.2 ⟨length, hex⟩

theorem isAlpha_iff {cs : List Char} : isAlpha cs = true ↔ IsUnit cs := by
  have one : Binary64.rank? 1 = some (Binary64.one : Int) := by decide +kernel
  simp only [isAlpha]
  constructor
  · intro h
    split at h
    · rename_i x read
      obtain ⟨units, place⟩ := Binary64.exists_rank? (isFinite_of_unit h)
      rw [Bool.and_eq_true, Binary64.le_iff Binary64.rank?_zero place, Binary64.le_iff place one] at h
      exact ⟨x, units, readChars?_eq_some_iff.1 read, place, h⟩
    · cases h
  · rintro ⟨x, units, number, place, bounds⟩
    rw [readChars?_eq_some_iff.2 number]
    simp only [Bool.and_eq_true, Binary64.le_iff Binary64.rank?_zero place, Binary64.le_iff place one]
    exact bounds

theorem isColor_iff {cs : List Char} : isColor cs = true ↔ IsColorText cs := by
  simp only [isColor]
  constructor
  · intro h
    split at h
    · rename_i base alpha parted
      obtain ⟨rfl, first⟩ := Text.splitFirst?_eq_some_iff.1 parted
      rw [Bool.and_eq_true, isBaseColor_iff, isAlpha_iff] at h
      exact .faded first h.1 h.2
    · rename_i parted
      exact .solid (Text.splitFirst?_eq_none_iff.1 parted) (isBaseColor_iff.1 h)
  · intro h
    cases h with
    | solid first base =>
      rw [Text.splitFirst?_eq_none_iff.2 first]
      exact isBaseColor_iff.2 base
    | faded first base unit =>
      rw [Text.splitFirst?_append first]
      simp only [Bool.and_eq_true, isBaseColor_iff, isAlpha_iff]
      exact ⟨base, unit⟩

theorem IsWordChar.not_special {c : Char} (h : IsWordChar c) :
    c ∉ expansionSpecial ∧ c ∉ optionSpecial ∧ IsInert delimiters c := by
  have expansion : ∀ d ∈ expansionSpecial, ¬ IsWordChar d := Text.forall_mem_of_all (by decide)
  have option : ∀ d ∈ optionSpecial, ¬ IsWordChar d := Text.forall_mem_of_all (by decide)
  exact ⟨fun found => expansion c found h, fun found => option c found h,
    isInert_of_not_mem h.not_mem_pathReserved⟩

/-- A check accepts just the texts of colors. They consist of letters, digits and a few signs, so that
none of their characters means anything to a reader of texts, of options or of graphs. -/
theorem colors_are_checked_by_their_language (color : String) :
    (checkColor color = .ok () ↔ IsColorText color.toList) ∧
    (checkColor color = .error (.invalidColor color) ↔ ¬ IsColorText color.toList) ∧
    (checkColor color = .ok () → ∀ c ∈ color.toList, IsWordChar c ∧
      c ∉ expansionSpecial ∧ c ∉ optionSpecial ∧ IsInert delimiters c) := by
  have accepts : checkColor color = .ok () ↔ IsColorText color.toList := by
    rw [checkColor_eq_ok_iff, isColor_iff]
  refine ⟨accepts, ?_, ?_⟩
  · rw [← accepts]
    cases checked : checkColor color with
    | ok => simp
    | error cause => simp [checkColor_eq_error checked]
  · intro checked c among
    have word := isWordChar_of_isColor (checkColor_eq_ok_iff.1 checked) c among
    exact ⟨word, word.not_special⟩

theorem half_orange_is_a_color : checkColor "0xFF8000@.5e0" = .ok () ∧
    ∀ c ∈ "0xFF8000@.5e0".toList, IsWordChar c ∧
      c ∉ expansionSpecial ∧ c ∉ optionSpecial ∧ IsInert delimiters c := by
  have checked : checkColor "0xFF8000@.5e0" = .ok () := by decide +kernel
  exact ⟨checked, (colors_are_checked_by_their_language _).2.2 checked⟩

example : checkColor "red@nan" = .error (.invalidColor "red@nan") ∧ checkColor "red@-0" = .ok () := by
  decide +kernel

end Montage.Filter
