import Mathlib.Data.List.TakeDrop
import Montage.Proofs.Order
import Montage.Proofs.Text
import Montage.Timestamp

/-! The text of finite numbers: a sign at most, digits, and a point among them at most. There is no
exponent and no word in it, so a number cannot be taken for anything else where it stands. -/
namespace Montage

def IsDigits (ds : List Char) : Prop := ds ≠ [] ∧ ∀ c ∈ ds, c.isDigit = true

def IsUnsignedDecimal (cs : List Char) : Prop :=
  ∃ whole fraction : List Char, cs = whole ++ fraction ∧ IsDigits whole ∧
    (fraction = [] ∨ ∃ ds, fraction = '.' :: ds ∧ IsDigits ds)

def IsPlainDecimal (cs : List Char) : Prop :=
  IsUnsignedDecimal cs ∨ ∃ ds, cs = '-' :: ds ∧ IsUnsignedDecimal ds

namespace Numeral

theorem isDigit_digitChar {d : Nat} (h : d < 10) : (digitChar d).isDigit = true := by
  have all : ∀ e ∈ List.range 10, (digitChar e).isDigit = true := by decide
  exact all d (List.mem_range.2 h)

theorem isDigits_digits (n : Nat) : IsDigits (digits n) := by
  fun_induction digits n with
  | case1 n h =>
    refine ⟨List.cons_ne_nil _ _, ?_⟩
    intro c hc
    rw [List.mem_singleton.1 hc]
    exact isDigit_digitChar h
  | case2 n h ih =>
    refine ⟨List.append_ne_nil_of_left_ne_nil ih.1 _, ?_⟩
    intro c hc
    rcases List.mem_append.1 hc with hc | hc
    · exact ih.2 c hc
    · rw [List.mem_singleton.1 hc]
      exact isDigit_digitChar (Nat.mod_lt _ (by omega))

end Numeral

theorem span_digits {ds rest : List Char} (digits : ∀ c ∈ ds, c.isDigit = true)
    (stop : ∀ c ∈ rest.head?, c.isDigit = false) : (ds ++ rest).span Char.isDigit = (ds, rest) := by
  rw [List.span_eq_takeWhile_dropWhile, List.takeWhile_append_of_pos digits,
    List.dropWhile_append_of_pos digits]
  cases rest with
  | nil => simp
  | cons c rest => simp [stop c rfl]

theorem exists_digits_append (cs : List Char) : ∃ ds rest, cs = ds ++ rest ∧
    (∀ c ∈ ds, c.isDigit = true) ∧ ∀ c ∈ rest.head?, c.isDigit = false := by
  refine ⟨cs.takeWhile Char.isDigit, cs.dropWhile Char.isDigit, ?_, ?_, ?_⟩
  · exact List.takeWhile_append_dropWhile.symm
  · exact fun c among => List.mem_takeWhile_imp among
  · intro c first
    have stops := List.head?_dropWhile_not Char.isDigit cs
    rw [Option.mem_def.1 first] at stops
    exact stops

namespace IsDigits

theorem append_zeros {ds : List Char} (h : IsDigits ds) (n : Nat) :
    IsDigits (ds ++ List.replicate n '0') := by
  refine ⟨List.append_ne_nil_of_left_ne_nil h.1 _, ?_⟩
  intro c hc
  rcases List.mem_append.1 hc with hc | hc
  · exact h.2 c hc
  · rw [List.eq_of_mem_replicate hc]; rfl

theorem zeros_append {ds : List Char} (h : IsDigits ds) (n : Nat) :
    IsDigits (List.replicate n '0' ++ ds) := by
  refine ⟨List.append_ne_nil_of_right_ne_nil _ h.1, ?_⟩
  intro c hc
  rcases List.mem_append.1 hc with hc | hc
  · rw [List.eq_of_mem_replicate hc]; rfl
  · exact h.2 c hc

theorem take {ds : List Char} (h : IsDigits ds) {n : Nat} (positive : 0 < n) :
    IsDigits (ds.take n) := by
  refine ⟨?_, fun c hc => h.2 c (List.mem_of_mem_take hc)⟩
  intro empty
  rcases List.take_eq_nil_iff.1 empty with zero | absent
  · omega
  · exact h.1 absent

theorem drop {ds : List Char} (h : IsDigits ds) {n : Nat} (inside : n < ds.length) :
    IsDigits (ds.drop n) := by
  refine ⟨?_, fun c hc => h.2 c (List.mem_of_mem_drop hc)⟩
  intro empty
  have := List.drop_eq_nil_iff.1 empty
  omega

theorem span_append {ds rest : List Char} (h : IsDigits ds)
    (stop : ∀ c ∈ rest.head?, c.isDigit = false) : (ds ++ rest).span Char.isDigit = (ds, rest) :=
  span_digits h.2 stop

theorem span {ds : List Char} (h : IsDigits ds) : ds.span Char.isDigit = (ds, []) := by
  have all := h.span_append (by simp : ∀ c ∈ ([] : List Char).head?, c.isDigit = false)
  rwa [List.append_nil] at all

theorem isUnsignedDecimal {ds : List Char} (h : IsDigits ds) : IsUnsignedDecimal ds :=
  ⟨ds, [], (List.append_nil ds).symm, h, .inl rfl⟩

theorem isUnsignedDecimal_point {whole ds : List Char} (hw : IsDigits whole)
    (hd : IsDigits ds) : IsUnsignedDecimal (whole ++ '.' :: ds) :=
  ⟨whole, '.' :: ds, rfl, hw, .inr ⟨ds, rfl, hd⟩⟩

end IsDigits

theorem IsUnsignedDecimal.mem {cs : List Char} (h : IsUnsignedDecimal cs) {c : Char}
    (hc : c ∈ cs) : c.isDigit = true ∨ c = '.' := by
  obtain ⟨whole, fraction, rfl, hw, hf⟩ := h
  rcases List.mem_append.1 hc with hc | hc
  · exact .inl (hw.2 c hc)
  · rcases hf with rfl | ⟨ds, rfl, hd⟩
    · cases hc
    · rcases List.mem_cons.1 hc with rfl | hc
      · exact .inr rfl
      · exact .inl (hd.2 c hc)

theorem IsUnsignedDecimal.head?_ne {cs : List Char} (h : IsUnsignedDecimal cs) :
    cs.head? ≠ some '-' := by
  intro first
  rcases h.mem (List.mem_of_mem_head? first) with digit | point
  · exact absurd digit (by decide)
  · exact absurd point (by decide)

theorem IsPlainDecimal.mem {cs : List Char} (h : IsPlainDecimal cs) {c : Char} (hc : c ∈ cs) :
    c.isDigit = true ∨ c = '.' ∨ c = '-' := by
  rcases h with h | ⟨ds, rfl, h⟩
  · exact (h.mem hc).imp_right .inl
  · rcases List.mem_cons.1 hc with rfl | hc
    · exact .inr (.inr rfl)
    · exact (h.mem hc).imp_right .inl

/-- The point falls behind the digits, among them, or before them. -/
theorem Decimal.plain_isUnsignedDecimal (d : Decimal) : IsUnsignedDecimal d.plain := by
  have digits := Numeral.isDigits_digits d.digits
  simp only [Decimal.plain]
  split
  · exact (digits.append_zeros _).isUnsignedDecimal
  · split
    · rename_i negative among
      exact (digits.take (by omega)).isUnsignedDecimal_point (digits.drop (by omega))
    · have zero : IsDigits ['0'] := ⟨by simp, Text.forall_mem_of_all (by decide)⟩
      exact zero.isUnsignedDecimal_point (digits.zeros_append _)

theorem Binary64.magnitude_isUnsignedDecimal (units : Nat) (exact : Representable units) :
    IsUnsignedDecimal (if units = 0 then ['0'] else (shortest .larger units exact).plain) := by
  split
  · exact IsDigits.isUnsignedDecimal ⟨by simp, Text.forall_mem_of_all (by decide)⟩
  · exact Decimal.plain_isUnsignedDecimal _

theorem Binary64.chars_isPlainDecimal {x : Binary64} (finite : x.isFinite = true) :
    IsPlainDecimal x.chars := by
  cases x with
  | nan => cases finite
  | infinity negative => cases finite
  | finite negative units exact =>
    have magnitude := magnitude_isUnsignedDecimal units exact
    simp only [Binary64.chars]
    split
    · exact .inr ⟨_, rfl, magnitude⟩
    · exact .inl magnitude

theorem Timestamp.formatSeconds_isPlainDecimal {x : Binary64} (finite : x.isFinite = true) :
    IsPlainDecimal (formatSeconds x).toList := by
  unfold formatSeconds
  split
  · exact .inl (IsDigits.isUnsignedDecimal ⟨by simp, Text.forall_mem_of_all (by decide)⟩)
  · simpa [Binary64.text] using Binary64.chars_isPlainDecimal finite

/-- Both zeros are written without a sign, so a number that is not below zero has none. -/
theorem Timestamp.formatSeconds_isUnsignedDecimal {x : Binary64} (finite : x.isFinite = true)
    (above : x.lt 0 = false) : IsUnsignedDecimal (formatSeconds x).toList := by
  unfold formatSeconds
  split
  · exact IsDigits.isUnsignedDecimal ⟨by simp, Text.forall_mem_of_all (by decide)⟩
  · rename_i positive
    cases x with
    | nan => cases finite
    | infinity => cases finite
    | finite negative units exact =>
      cases negative with
      | true => simp [Binary64.isZero, Binary64.units_eq_zero_of_lt above] at positive
      | false => simpa [Binary64.text, Binary64.chars] using Binary64.magnitude_isUnsignedDecimal units exact

end Montage
