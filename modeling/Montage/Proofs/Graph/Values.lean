import Montage.Filter.Escape
import Montage.Proofs.NumberText
import Montage.Proofs.PlainDecimal

/-! The characters of values that stand outside quotes. Numbers, colors and checked paths hold none that
a reader of a graph or of its options takes for a sign. -/
namespace Montage.Filter

def IsBare (cs : List Char) : Prop := ∀ c ∈ cs, c ∉ pathReserved

instance (cs : List Char) : Decidable (IsBare cs) :=
  decidable_of_iff (cs.all fun c => c ∉ pathReserved) (by simp [IsBare])

theorem IsBare.not_mem_optionSpecial {cs : List Char} (h : IsBare cs) :
    ∀ c ∈ cs, c ∉ optionSpecial := by
  have all : ∀ c ∈ optionSpecial, c ∈ pathReserved := Text.forall_mem_of_all (by decide)
  exact fun c hc special => h c hc (all c special)

def IsWordChar (c : Char) : Prop := c.isAlphanum = true ∨ c ∈ ['.', '+', '-', '#', '@']

instance (c : Char) : Decidable (IsWordChar c) := inferInstanceAs (Decidable (_ ∨ _))

theorem IsWordChar.not_mem_pathReserved {c : Char} (h : IsWordChar c) : c ∉ pathReserved := by
  have all : ∀ d ∈ pathReserved, ¬ IsWordChar d := Text.forall_mem_of_all (by decide)
  exact fun reserved => all c reserved h

theorem isWordChar_of_isDigit {c : Char} (h : c.isDigit = true) : IsWordChar c :=
  .inl (by simp [Char.isAlphanum, h])

theorem isControl_of_isAlphanum {c : Char} (h : c.isAlphanum = true) :
    Text.isControl c = false := by
  rw [Text.isAlphanum_iff] at h
  simp only [Text.isControl, Bool.or_eq_false_iff, Bool.and_eq_false_iff, decide_eq_false_iff_not]
  omega

theorem isFamilyChar_safe {c : Char} (h : isFamilyChar c = true) :
    Text.isControl c = false ∧ c ∉ pathReserved := by
  simp only [isFamilyChar, Bool.or_eq_true, decide_eq_true_eq] at h
  rcases h with ((word | rfl) | rfl) | rfl
  · exact ⟨isControl_of_isAlphanum word, IsWordChar.not_mem_pathReserved (.inl word)⟩
  · decide
  · decide
  · decide

theorem isBare_of_isWordChar {cs : List Char} (h : ∀ c ∈ cs, IsWordChar c) : IsBare cs :=
  fun c hc => (h c hc).not_mem_pathReserved

theorem IsPlainDecimal.isBare {cs : List Char} (h : IsPlainDecimal cs) : IsBare cs := by
  refine isBare_of_isWordChar fun c hc => ?_
  rcases h.mem hc with digit | rfl | rfl
  · exact isWordChar_of_isDigit digit
  · decide
  · decide

theorem isBare_formatSeconds {x : Binary64} (finite : x.isFinite = true) :
    IsBare (Timestamp.formatSeconds x).toList :=
  IsPlainDecimal.isBare (Timestamp.formatSeconds_isPlainDecimal finite)

theorem isBare_numeral (n : Nat) : IsBare (Numeral.text n).toList := by
  rw [Numeral.text, String.toList_ofList]
  exact isBare_of_isWordChar fun c hc => isWordChar_of_isDigit ((Numeral.isDigits_digits n).2 c hc)

def hexDigits : List Char := "0123456789abcdefABCDEF".toList

theorem isHexDigit_iff {c : Char} : isHexDigit c = true ↔ c ∈ hexDigits := by
  have codes : hexDigits.map Char.toNat = List.range' 48 10 ++ List.range' 97 6 ++ List.range' 65 6 := by
    decide
  constructor
  · intro h
    simp only [isHexDigit, Char.isDigit, Bool.or_eq_true, Bool.and_eq_true, decide_eq_true_eq,
      Char.le_def, ge_iff_le, UInt32.le_iff_toNat_le, Char.reduceVal, UInt32.reduceToNat] at h
    have among : c.toNat ∈ hexDigits.map Char.toNat := by
      have value : c.toNat = c.val.toNat := rfl
      rw [codes, List.mem_append, List.mem_append, List.mem_range'_1, List.mem_range'_1,
        List.mem_range'_1]
      omega
    obtain ⟨d, digit, same⟩ := List.mem_map.1 among
    rw [← Char.toNat_inj.1 same]
    exact digit
  · have all : ∀ d ∈ hexDigits, isHexDigit d = true := Text.forall_mem_of_all (by decide)
    exact all c

theorem isAlphanum_of_isHexDigit {c : Char} (h : isHexDigit c = true) : c.isAlphanum = true := by
  have all : ∀ d ∈ hexDigits, d.isAlphanum = true := Text.forall_mem_of_all (by decide)
  exact all c (isHexDigit_iff.1 h)

theorem isWordChar_of_isBaseColor {cs : List Char} (h : isBaseColor cs = true) :
    ∀ c ∈ cs, IsWordChar c := by
  have hex : ∀ {ds : List Char},
      ((ds.length = 6 || ds.length = 8) && ds.all isHexDigit) = true →
      ∀ c ∈ ds, IsWordChar c := by
    intro ds h c hc
    rw [Bool.and_eq_true, List.all_eq_true] at h
    exact .inl (isAlphanum_of_isHexDigit (h.2 c hc))
  simp only [isBaseColor] at h
  split at h
  · exact List.forall_mem_cons.2 ⟨by decide, hex h⟩
  · exact List.forall_mem_cons.2 ⟨by decide, List.forall_mem_cons.2 ⟨by decide, hex h⟩⟩
  · exact List.forall_mem_cons.2 ⟨by decide, List.forall_mem_cons.2 ⟨by decide, hex h⟩⟩
  · intro c hc
    rw [Bool.and_eq_true, List.all_eq_true] at h
    exact .inl (by simp [Char.isAlphanum, h.2 c hc])

theorem isFinite_of_unit {x : Binary64} (h : (Binary64.le 0 x && x.le 1) = true) :
    x.isFinite = true := by
  cases x with
  | nan => exact absurd h (by decide +kernel)
  | infinity negative => cases negative <;> exact absurd h (by decide +kernel)
  | finite => rfl

theorem isWordChar_of_isAlpha {cs : List Char} (h : isAlpha cs = true) :
    ∀ c ∈ cs, IsWordChar c := by
  simp only [isAlpha] at h
  split at h
  · rename_i x read
    intro c hc
    rcases Binary64.isNumberChar_of_readChars? read (isFinite_of_unit h) c hc with digit | sign
    · exact isWordChar_of_isDigit digit
    · have all : ∀ d ∈ ['.', 'e', 'E', '+', '-'], IsWordChar d :=
        Text.forall_mem_of_all (by decide)
      exact all c sign
  · cases h

theorem isWordChar_of_isColor {cs : List Char} (h : isColor cs = true) : ∀ c ∈ cs, IsWordChar c := by
  simp only [isColor] at h
  split at h
  · rename_i base alpha parted
    rw [Bool.and_eq_true] at h
    rw [(Text.splitFirst?_eq_some_iff.1 parted).1]
    refine List.forall_mem_append.2 ⟨isWordChar_of_isBaseColor h.1, ?_⟩
    exact List.forall_mem_cons.2 ⟨by decide, isWordChar_of_isAlpha h.2⟩
  · exact isWordChar_of_isBaseColor h

theorem isBare_of_isColor {cs : List Char} (h : isColor cs = true) : IsBare cs :=
  isBare_of_isWordChar (isWordChar_of_isColor h)

end Montage.Filter
