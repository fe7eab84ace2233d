import Montage.Proofs.Binary64.Language
import Montage.Proofs.Binary64.ReadBack

/-! Plain decimal text reads back to the number it was written for, wherever the point stands in it. -/
namespace Montage

theorem IsUnsignedDecimal.exists_cons {cs : List Char} (h : IsUnsignedDecimal cs) :
    ∃ c rest, cs = c :: rest ∧ c.isDigit = true := by
  obtain ⟨whole, fraction, rfl, digits, -⟩ := h
  obtain ⟨c, ds, rfl⟩ := List.exists_cons_of_ne_nil digits.1
  exact ⟨c, ds ++ fraction, rfl, digits.2 c List.mem_cons_self⟩

namespace Decimal

theorem read?_digits {ds : List Char} (h : IsDigits ds) : read? ds = some ⟨Numeral.value ds, 0⟩ :=
  read?_eq_some_iff.2 (.plain (.whole h))

theorem read?_point {whole ds : List Char} (hw : IsDigits whole) (hd : IsDigits ds) :
    read? (whole ++ '.' :: ds) = some ⟨Numeral.value (whole ++ ds), -ds.length⟩ := by
  have digits : IsDigits (whole ++ ds) :=
    ⟨List.append_ne_nil_of_left_ne_nil hw.1 ds, List.forall_mem_append.2 ⟨hw.2, hd.2⟩⟩
  exact read?_eq_some_iff.2 (.plain (.point digits))

/-- The point moves the digits by as many places as the exponent says. -/
theorem read?_plain {d : Decimal} (positive : d.digits ≠ 0) :
    ∃ e, read? d.plain = some e ∧ ∀ negative, e.toBinary64 negative = d.toBinary64 negative := by
  obtain ⟨n, exponent⟩ := d
  have digits := Numeral.isDigits_digits n
  have value := Numeral.value_digits n
  simp only [plain]
  generalize Numeral.digits n = ds at digits value ⊢
  split
  · rename_i whole
    refine ⟨_, read?_digits (digits.append_zeros _), ?_⟩
    intro negative
    have places : exponent - exponent.toNat = 0 := by omega
    rw [Numeral.value_append_zeros, value,
      ← toBinary64_shift negative positive exponent exponent.toNat, places]
  · split
    · rename_i negative among
      refine ⟨_, read?_point (digits.take (by omega)) (digits.drop (by omega)), ?_⟩
      intro negative
      have places : -((ds.drop (ds.length - (-exponent).toNat)).length : Int) = exponent := by
        rw [List.length_drop]
        omega
      rw [List.take_append_drop, value, places]
    · have zero : IsDigits ['0'] := ⟨by simp, Text.forall_mem_of_all (by decide)⟩
      refine ⟨_, read?_point zero (digits.zeros_append _), ?_⟩
      intro negative
      have leading :
          Numeral.value (['0'] ++ (List.replicate ((-exponent).toNat - ds.length) '0' ++ ds)) = n := by
        rw [← List.append_assoc, List.singleton_append, ← List.replicate_succ,
          Numeral.value_zeros_append, value]
      have places : -((List.replicate ((-exponent).toNat - ds.length) '0' ++ ds).length : Int) =
          exponent := by
        rw [List.length_append, List.length_replicate]
        omega
      rw [leading, places]

end Decimal

namespace Binary64

theorem readChars?_digit {c : Char} (digit : c.isDigit = true) (cs : List Char) :
    readChars? (c :: cs) = (Decimal.read? (c :: cs)).map (Decimal.toBinary64 false) := by
  have plus : c ≠ '+' := by rintro rfl; cases digit
  have minus : c ≠ '-' := by rintro rfl; cases digit
  have infinite : c ≠ 'i' := by rintro rfl; cases digit
  have nothing : c ≠ 'n' := by rintro rfl; cases digit
  simp [readChars?, toLower_of_isDigit digit, plus, minus, infinite, nothing]

theorem readChars?_minus_digit {c : Char} (digit : c.isDigit = true) (cs : List Char) :
    readChars? ('-' :: c :: cs) = (Decimal.read? (c :: cs)).map (Decimal.toBinary64 true) := by
  have infinite : c ≠ 'i' := by rintro rfl; cases digit
  have nothing : c ≠ 'n' := by rintro rfl; cases digit
  simp [readChars?, toLower_of_isDigit digit, infinite, nothing]

theorem readChars?_zero : readChars? ['0'] = some 0 := by decide +kernel

theorem read?_magnitude (negative : Bool) {units : Nat} (exact : Representable units) :
    (Decimal.read? (if units = 0 then ['0'] else (shortest .larger units exact).plain)).map
      (Decimal.toBinary64 negative) = some (.finite negative units exact) := by
  split
  · rename_i nothing
    subst nothing
    rfl
  · rename_i positive
    have reads := shortest_reads_back .larger exact positive
    obtain ⟨e, read, same⟩ := Decimal.read?_plain (Decimal.digits_ne_zero reads positive)
    rw [read, Option.map_some, same, Decimal.toBinary64_of_unsigned reads]

/-- The text of a finite number reads back to it, the sign of zero included. -/
theorem readChars?_chars {x : Binary64} (finite : x.isFinite = true) :
    readChars? x.chars = some x := by
  cases x with
  | nan => cases finite
  | infinity => cases finite
  | finite negative units exact =>
    obtain ⟨c, cs, text, digit⟩ := (magnitude_isUnsignedDecimal units exact).exists_cons
    have reads := read?_magnitude negative exact
    simp only [chars]
    rw [text] at reads ⊢
    cases negative with
    | true => rw [if_pos rfl, readChars?_minus_digit digit, reads]
    | false => rw [if_neg Bool.false_ne_true, readChars?_digit digit, reads]

end Binary64

namespace Timestamp

open Binary64 (readChars?)

theorem readChars?_formatSeconds {x : Binary64} (finite : x.isFinite = true) :
    readChars? (formatSeconds x).toList = some x.plain := by
  unfold formatSeconds Binary64.plain
  split
  · exact Binary64.readChars?_zero
  · rw [Binary64.text, String.toList_ofList, Binary64.readChars?_chars finite]

end Timestamp
end Montage
