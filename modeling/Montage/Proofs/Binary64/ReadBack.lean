import Mathlib.Data.List.Induction
import Mathlib.Tactic.Ring
import Montage.Binary64.Decimal

/-! Decimals read back to the doubles they were written for. Rounding sees the quotient only, so the
way a decimal is spelled does not matter, and the exact decimal of a double is rounded to itself. The
shortest decimal is taken among those that read back, or else is the exact one. -/
namespace Montage

namespace Binary64

theorem spacing_pos (k : Nat) : 0 < spacing k := Nat.two_pow_pos _

theorem spacing_le {k : Nat} (positive : k ≠ 0) : spacing k ≤ k :=
  Nat.le_trans (Nat.pow_le_pow_right (by omega) (Nat.sub_le _ _)) (Nat.log2_self_le positive)

/-! Rounding -/

theorem roundHalfEven_mul (num den : Nat) {c : Nat} (hc : 0 < c) :
    roundHalfEven (num * c) (den * c) = roundHalfEven num den := by
  have quotient : num * c / (den * c) = num / den := Nat.mul_div_mul_right num den hc
  have rest : num * c % (den * c) = num % den * c := Nat.mul_mod_mul_right c num den
  have less : 2 * (num % den * c) < den * c ↔ 2 * (num % den) < den := by
    rw [← Nat.mul_assoc]; exact Nat.mul_lt_mul_right hc
  have half : 2 * (num % den * c) = den * c ↔ 2 * (num % den) = den := by
    rw [← Nat.mul_assoc]; exact Nat.mul_left_inj (by omega)
  simp only [roundHalfEven, quotient, rest, less, half]

theorem roundMagnitude_mul (num den : Nat) {c : Nat} (hc : 0 < c) :
    roundMagnitude (num * c) (den * c) = roundMagnitude num den := by
  simp only [roundMagnitude, Nat.mul_div_mul_right num den hc]
  rw [Nat.mul_right_comm, roundHalfEven_mul num _ hc]

theorem roundMagnitude_congr {num den num' den' : Nat} (hd : 0 < den) (hd' : 0 < den')
    (h : num * den' = num' * den) : roundMagnitude num den = roundMagnitude num' den' := by
  calc roundMagnitude num den
      = roundMagnitude (num * den') (den * den') := (roundMagnitude_mul num den hd').symm
    _ = roundMagnitude (num' * den) (den' * den) := by rw [h, Nat.mul_comm den den']
    _ = roundMagnitude num' den' := roundMagnitude_mul num' den' hd

theorem ofRatio_congr (negative : Bool) {num den num' den' : Nat} (hd : 0 < den) (hd' : 0 < den')
    (h : num * den' = num' * den) : ofRatio negative num den = ofRatio negative num' den' := by
  simp only [ofRatio, roundMagnitude_congr hd hd' h]

/-- A magnitude with few enough bits stands where rounding may stop. -/
theorem roundMagnitude_of_dvd {units : Nat} (exact : spacing units ∣ units) :
    roundMagnitude units 1 = units := by
  obtain ⟨m, hm⟩ := exact
  have positive := spacing_pos units
  have quotient : units / spacing units = m := Nat.div_eq_of_eq_mul_right positive hm
  have rest : units % spacing units = 0 := Nat.mod_eq_zero_of_dvd ⟨m, hm⟩
  simp only [roundMagnitude, roundHalfEven, Nat.div_one, Nat.one_mul, quotient, rest]
  rw [if_pos (.inl positive), Nat.mul_comm, ← hm]

theorem ofRatio_eq_finite_iff {negative : Bool} {num den units : Nat} {exact : Representable units} :
    ofRatio negative num den = .finite negative units exact ↔ roundMagnitude num den = units := by
  constructor
  · intro h
    rw [ofRatio] at h
    split at h
    · exact (Binary64.finite.inj h).2
    · cases h
  · rintro rfl
    exact dif_pos exact.2

theorem ofRatio_of_representable (negative : Bool) {units : Nat} (exact : Representable units) :
    ofRatio negative units 1 = .finite negative units exact :=
  ofRatio_eq_finite_iff.2 (roundMagnitude_of_dvd exact.1)

theorem roundMagnitude_one_le (num : Nat) : roundMagnitude num 1 ≤ 2 * num := by
  by_cases zero : num = 0
  · subst zero; rw [roundMagnitude_of_dvd (Nat.dvd_zero _)]
  simp only [roundMagnitude, Nat.div_one, Nat.one_mul]
  calc roundHalfEven num (spacing num) * spacing num
      ≤ (num / spacing num + 1) * spacing num :=
        Nat.mul_le_mul_right _ (roundHalfEven_le_succ _ _)
    _ = num / spacing num * spacing num + spacing num := by ring
    _ ≤ num + num := Nat.add_le_add (Nat.div_mul_le_self _ _) (spacing_le zero)
    _ = 2 * num := by omega

theorem ofRatio_one_isFinite (negative : Bool) {num : Nat} (h : 2 * num < limit) :
    (ofRatio negative num 1).isFinite = true := by
  rw [ofRatio, dif_pos (Nat.lt_of_le_of_lt (roundMagnitude_one_le num) h)]; rfl

theorem ofInt_isFinite {i : Int} (h : i.natAbs ≤ Nat.pow 2 64) : (ofInt i).isFinite = true := by
  refine ofRatio_one_isFinite _ ?_
  calc 2 * (i.natAbs * one)
      ≤ 2 * (Nat.pow 2 64 * one) := Nat.mul_le_mul_left _ (Nat.mul_le_mul_right _ h)
    _ < limit := by decide +kernel

end Binary64

/-! Values and widths -/

namespace Numeral

theorem value_append (xs ys : List Char) :
    value (xs ++ ys) = value xs * 10 ^ ys.length + value ys := by
  induction ys using List.reverseRecOn with
  | nil => simp [value]
  | append_singleton ys c ih =>
    rw [← List.append_assoc, value_append_singleton, value_append_singleton, ih]
    simp only [List.length_append, List.length_singleton, pow_succ]
    ring

theorem value_zeros (n : Nat) : value (List.replicate n '0') = 0 := by
  induction n with
  | zero => rfl
  | succ n ih => rw [List.replicate_succ', value_append_singleton, ih]; rfl

theorem value_append_zeros (ds : List Char) (n : Nat) :
    value (ds ++ List.replicate n '0') = value ds * 10 ^ n := by
  rw [value_append, value_zeros, List.length_replicate, Nat.add_zero]

theorem value_zeros_append (n : Nat) (ds : List Char) :
    value (List.replicate n '0' ++ ds) = value ds := by
  rw [value_append, value_zeros, Nat.zero_mul, Nat.zero_add]

theorem value_padded (places n : Nat) : value (padded places n) = n := by
  rw [padded, value_zeros_append, value_digits]

theorem length_digits_mono {m n : Nat} (h : m ≤ n) : (digits m).length ≤ (digits n).length := by
  rw [← width_eq_length, ← width_eq_length]
  fun_induction width n generalizing m with
  | case1 n small => rw [width, if_pos (Nat.lt_of_le_of_lt h small)]
  | case2 n large ih =>
    have shorter := ih (Nat.div_le_div_right h)
    rw [width]
    split <;> omega

theorem width_mul_pow {n : Nat} (positive : n ≠ 0) (k : Nat) :
    width (n * 10 ^ k) = width n + k := by
  induction k with
  | zero => simp
  | succ k ih =>
    have large : ¬ n * 10 ^ (k + 1) < 10 := by
      have : 0 < n * 10 ^ k := Nat.mul_pos (by omega) (Nat.pow_pos (by omega))
      rw [Nat.pow_succ, ← Nat.mul_assoc]; omega
    have shifted : n * 10 ^ (k + 1) / 10 = n * 10 ^ k := by
      rw [Nat.pow_succ, ← Nat.mul_assoc, Nat.mul_div_cancel _ (by omega)]
    rw [width, if_neg large, shifted, ih, Nat.add_assoc]

theorem lt_pow_width (n : Nat) : n < 10 ^ width n := by
  fun_induction width n with
  | case1 n h => simpa using h
  | case2 n h ih => rw [Nat.pow_succ]; omega

theorem pow_le_of_width {n k : Nat} (h : k < width n) (positive : n ≠ 0) : 10 ^ k ≤ n := by
  fun_induction width n generalizing k with
  | case1 n small =>
    obtain rfl : k = 0 := by omega
    exact Nat.pos_of_ne_zero positive
  | case2 n large ih =>
    cases k with
    | zero => exact Nat.pos_of_ne_zero positive
    | succ k =>
      have := ih (k := k) (by omega) (by omega)
      rw [Nat.pow_succ]; omega

end Numeral

namespace Decimal

open Binary64 (Representable ofRatio_congr ofRatio_eq_finite_iff)

/-- Where powers of ten are formed. -/
theorem toBinary64_of_moderate (negative : Bool) {d : Decimal} (positive : d.digits ≠ 0)
    (low : -330 ≤ d.exponent + Numeral.width d.digits)
    (high : d.exponent + Numeral.width d.digits ≤ 310) :
    d.toBinary64 negative = Binary64.ofRatio negative
      (d.digits * 10 ^ d.exponent.toNat * Binary64.one) (10 ^ (-d.exponent).toNat) := by
  rw [toBinary64, if_neg (by omega), if_neg (by omega)]
  rfl

theorem toBinary64_shift (negative : Bool) {n : Nat} (positive : n ≠ 0) (e : Int) (k : Nat) :
    toBinary64 negative ⟨n * 10 ^ k, e - k⟩ = toBinary64 negative ⟨n, e⟩ := by
  have nonzero : n * 10 ^ k ≠ 0 := Nat.mul_ne_zero positive (by simp)
  have top : e - k + (Numeral.width n + k : Nat) = e + Numeral.width n := by omega
  have ratio : Binary64.ofRatio negative (n * 10 ^ k * 10 ^ (e - k).toNat * Binary64.one)
        (10 ^ (-(e - k)).toNat) =
      Binary64.ofRatio negative (n * 10 ^ e.toNat * Binary64.one) (10 ^ (-e).toNat) := by
    refine ofRatio_congr negative (Nat.pow_pos (by decide)) (Nat.pow_pos (by decide)) ?_
    have powers : k + (e - k).toNat + (-e).toNat = e.toNat + (-(e - k)).toNat := by omega
    have powers : (10 : Nat) ^ k * 10 ^ (e - k).toNat * 10 ^ (-e).toNat =
        10 ^ e.toNat * 10 ^ (-(e - k)).toNat := by rw [← pow_add, ← pow_add, ← pow_add, powers]
    calc n * 10 ^ k * 10 ^ (e - k).toNat * Binary64.one * 10 ^ (-e).toNat
        = n * Binary64.one * (10 ^ k * 10 ^ (e - k).toNat * 10 ^ (-e).toNat) := by ring
      _ = n * Binary64.one * (10 ^ e.toNat * 10 ^ (-(e - k)).toNat) := by rw [powers]
      _ = n * 10 ^ e.toNat * Binary64.one * 10 ^ (-(e - k)).toNat := by ring
  simp only [toBinary64, nonzero, positive, false_or, Numeral.width_mul_pow positive, top,
    Nat.pow_eq, ratio]

/-- Which sign stands before the digits decides about the sign only. -/
theorem toBinary64_of_unsigned {d : Decimal} {units : Nat} {exact : Representable units}
    (h : d.toBinary64 false = .finite false units exact) (negative : Bool) :
    d.toBinary64 negative = .finite negative units exact := by
  simp only [toBinary64] at h ⊢
  split at h
  · rename_i small
    injection h with _ zero
    subst zero
    rw [if_pos small, Binary64.zero]
  · rename_i sizeable
    rw [if_neg sizeable]
    split at h
    · cases h
    · rename_i moderate
      rw [if_neg moderate, ofRatio_eq_finite_iff]
      exact ofRatio_eq_finite_iff.1 h

theorem digits_ne_zero {d : Decimal} {units : Nat} {exact : Representable units}
    (h : d.toBinary64 false = .finite false units exact) (positive : units ≠ 0) : d.digits ≠ 0 := by
  intro zero
  rw [toBinary64, if_pos (.inl zero)] at h
  injection h with _ same
  exact positive same.symm

end Decimal

namespace Binary64

theorem toBinary64_exact {units m places : Nat} (exact : Representable units)
    (tens : m * one = 10 ^ places) (positive : units * m ≠ 0)
    (low : -330 ≤ -(places : Int) + Numeral.width (units * m))
    (high : -(places : Int) + Numeral.width (units * m) ≤ 310) :
    Decimal.toBinary64 false ⟨units * m, -places⟩ = .finite false units exact := by
  rw [Decimal.toBinary64_of_moderate false positive low high, ← ofRatio_of_representable false exact]
  refine ofRatio_congr false (Nat.pow_pos (by decide)) (by decide) ?_
  have whole : (-(places : Int)).toNat = 0 := by omega
  have decimals : (- -(places : Int)).toNat = places := by omega
  simp only [whole, decimals]
  rw [Nat.pow_zero, Nat.mul_one, Nat.mul_one, Nat.mul_assoc, tens]

/-- The exact decimal is within the range in which powers of ten are formed. -/
theorem exactDecimal_reads_back {units : Nat} (exact : Representable units) (positive : units ≠ 0) :
    (exactDecimal units).toBinary64 false = .finite false units exact := by
  have nonzero : units * Nat.pow 5 1074 ≠ 0 := Nat.mul_ne_zero positive (by decide +kernel)
  have wide : 743 < Numeral.width (units * Nat.pow 5 1074) := by
    refine (Nat.pow_lt_pow_iff_right (a := 10) (by decide)).1 ?_
    calc 10 ^ 743 ≤ Nat.pow 5 1074 := by decide +kernel
      _ ≤ units * Nat.pow 5 1074 := Nat.le_mul_of_pos_left _ (Nat.pos_of_ne_zero positive)
      _ < 10 ^ Numeral.width (units * Nat.pow 5 1074) := Numeral.lt_pow_width _
  have narrow : Numeral.width (units * Nat.pow 5 1074) ≤ 1384 := by
    refine Nat.le_of_not_lt fun wider => Nat.lt_irrefl (10 ^ 1384) ?_
    calc 10 ^ 1384 ≤ units * Nat.pow 5 1074 := Numeral.pow_le_of_width wider nonzero
      _ ≤ limit * Nat.pow 5 1074 := Nat.mul_le_mul_right _ (Nat.le_of_lt exact.2)
      _ < 10 ^ 1384 := by decide +kernel
  have tens : Nat.pow 5 1074 * one = 10 ^ 1074 := by decide +kernel
  have reads := toBinary64_exact exact tens nonzero (by omega) (by omega)
  exact reads

/-- A cut is only made where it reads back. -/
theorem cut?_reads_back {tie : Tie} {x : Binary64} {d c : Decimal} {total kept : Nat}
    (h : cut? tie x d total kept = some c) : c.toBinary64 false = x := by
  simp only [cut?] at h
  split at h
  · rename_i below above
    cases h
    split
    · exact of_decide_eq_true below
    · exact of_decide_eq_true above
  · rename_i below above
    cases h
    exact of_decide_eq_true below
  · rename_i below above
    cases h
    exact of_decide_eq_true above
  · cases h

/-- What is written for a positive number reads back to it, however ties are taken. -/
theorem shortest_reads_back (tie : Tie) {units : Nat} (exact : Representable units)
    (positive : units ≠ 0) : (shortest tie units exact).toBinary64 false = .finite false units exact := by
  rw [shortest]
  cases found : (List.range' 1 17).findSome?
      (cut? tie (.finite false units exact) (exactDecimal units)
        (Numeral.width (exactDecimal units).digits)) with
  | none => exact exactDecimal_reads_back exact positive
  | some c =>
    obtain ⟨kept, -, cut⟩ := List.exists_of_findSome?_eq_some found
    exact cut?_reads_back cut

end Binary64
end Montage
