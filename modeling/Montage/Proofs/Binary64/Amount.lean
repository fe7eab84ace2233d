import Montage.Proofs.Binary64.ReadBack
import Montage.Proofs.Order

/-! Numbers that are not below zero, with positive infinity among them and not a number left out. Their
sums and products are of this kind again, except where infinity meets zero in a product. -/
namespace Montage.Binary64

theorem zero_le_iff {x : Binary64} : Binary64.le 0 x = true ↔ ∃ i, x.rank? = some i ∧ 0 ≤ i := by
  cases place : x.rank? with
  | none => simp [Binary64.le, Binary64.compare, place]
  | some i => simp [le_iff rank?_zero place]

theorem zero_le_self : Binary64.le 0 0 = true := zero_le_iff.2 ⟨0, rank?_zero, Int.le_refl 0⟩

theorem isNaN_of_zero_le {x : Binary64} (above : Binary64.le 0 x = true) : x.isNaN = false := by
  obtain ⟨i, place, -⟩ := zero_le_iff.1 above
  exact isNaN_eq_false_iff.2 ⟨i, place⟩

theorem zero_le_infinity : Binary64.le 0 (.infinity false) = true :=
  zero_le_iff.2 ⟨limit, rfl, by omega⟩

theorem zero_le_finite (negative : Bool) {units : Nat} (exact : Representable units)
    (above : 0 ≤ signedUnits negative units) : Binary64.le 0 (.finite negative units exact) = true :=
  zero_le_iff.2 ⟨_, rfl, above⟩

theorem zero_le_zero (negative : Bool) : Binary64.le 0 (zero negative) = true :=
  zero_le_finite negative _ (by cases negative <;> decide)

theorem zero_le_ofRatio (num den : Nat) : Binary64.le 0 (ofRatio false num den) = true := by
  unfold ofRatio
  split
  · exact zero_le_finite false _ (Int.natCast_nonneg _)
  · exact zero_le_infinity

theorem zero_le_cases {x : Binary64} (above : Binary64.le 0 x = true) :
    x = .infinity false ∨ ∃ negative units exact, x = .finite negative units exact ∧
      0 ≤ signedUnits negative units := by
  obtain ⟨i, place, nonneg⟩ := zero_le_iff.1 above
  cases x with
  | nan => cases place
  | infinity negative =>
    cases negative with
    | false => exact .inl rfl
    | true =>
      have positive := limit_pos
      rw [rank?_infinity, if_pos rfl, Option.some.injEq] at place
      omega
  | finite negative units exact =>
    have same : signedUnits negative units = i := Option.some.inj place
    exact .inr ⟨negative, units, exact, rfl, same ▸ nonneg⟩

/-- Infinities of one sign have a sum, and a sum of finite numbers is rounded once. -/
theorem zero_le_add {x y : Binary64} (hx : Binary64.le 0 x = true) (hy : Binary64.le 0 y = true) :
    Binary64.le 0 (x + y) = true := by
  change Binary64.le 0 (add x y) = true
  rcases zero_le_cases hx with rfl | ⟨a, m, exact_m, rfl, above_m⟩
  · rcases zero_le_cases hy with rfl | ⟨b, n, exact_n, rfl, above_n⟩
    · rw [add, if_pos rfl]
      exact zero_le_infinity
    · exact zero_le_infinity
  · rcases zero_le_cases hy with rfl | ⟨b, n, exact_n, rfl, above_n⟩
    · exact zero_le_infinity
    · have above : ¬ signedUnits a m + signedUnits b n < 0 := by omega
      simp only [add, above, decide_false]
      split
      · exact zero_le_zero _
      · exact zero_le_ofRatio _ _

theorem one_pos : 0 < one := by decide +kernel

theorem zero_lt_cases {x : Binary64} (above : Binary64.lt 0 x = true) (finite : x.isFinite = true) :
    ∃ units exact, x = .finite false units exact ∧ units ≠ 0 := by
  cases x with
  | nan => cases finite
  | infinity => cases finite
  | finite negative units exact =>
    have place : 0 < signedUnits negative units := (lt_iff rank?_zero rfl).1 above
    cases negative with
    | false =>
      simp only [signedUnits, Bool.false_eq_true, if_false] at place
      exact ⟨units, exact, rfl, by omega⟩
    | true =>
      simp only [signedUnits, if_true] at place
      omega

theorem zero_le_mul {x y : Binary64} (hx : Binary64.le 0 x = true) (hy : Binary64.lt 0 y = true)
    (finite : y.isFinite = true) : Binary64.le 0 (x * y) = true := by
  change Binary64.le 0 (mul x y) = true
  obtain ⟨n, exact_n, rfl, positive⟩ := zero_lt_cases hy finite
  rcases zero_le_cases hx with rfl | ⟨a, m, exact_m, rfl, above⟩
  · rw [mul, if_neg positive]
    exact zero_le_infinity
  · cases a with
    | false => exact zero_le_ofRatio _ _
    | true =>
      have nothing : m = 0 := by simpa [signedUnits] using above
      subst nothing
      have signed : ofRatio true 0 one = zero true :=
        (ofRatio_congr true one_pos Nat.one_pos (by rw [Nat.zero_mul, Nat.zero_mul])).trans
          (ofRatio_of_representable true _)
      rw [mul, Nat.zero_mul, Bool.bne_false, signed]
      exact zero_le_zero true

theorem zero_eq : (0 : Binary64) = zero false := by decide +kernel

/-- What is added to zero is not changed, but for the sign of zero. -/
theorem zero_add_of_finite {x : Binary64} (finite : x.isFinite = true) : 0 + x = x.plain := by
  cases x with
  | nan => cases finite
  | infinity => cases finite
  | finite negative units exact =>
    have sum : signedUnits false 0 + signedUnits negative units = signedUnits negative units := by
      simp [signedUnits]
    unfold plain
    rw [zero_eq]
    change add (.finite false 0 _) (.finite negative units exact) = _
    simp only [add, sum]
    by_cases nothing : units = 0
    · subst nothing
      cases negative <;> simp [signedUnits, isZero]
    · have nonzero : signedUnits negative units ≠ 0 := by
        cases negative <;> simpa [signedUnits] using nothing
      have sign : decide (signedUnits negative units < 0) = negative := by
        cases negative with
        | false => simp [signedUnits]
        | true =>
          simp only [signedUnits, if_true, decide_eq_true_eq]
          omega
      have size : (signedUnits negative units).natAbs = units := by
        cases negative <;> simp [signedUnits]
      simp only [if_neg nonzero, sign, size, ofRatio_of_representable negative exact]
      simp [isZero, nothing]

end Montage.Binary64
