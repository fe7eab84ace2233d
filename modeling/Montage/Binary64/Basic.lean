/-! Double-precision numbers, exactly. A finite number is a sign and a count of units of `2 ^ -1074`,
the distance between the smallest numbers, so every comparison and every exact result is one of
whole numbers. Rounding takes a quotient of whole numbers to the nearest representable count. -/
namespace Montage

namespace Binary64

/-- The whole number of units in one. -/
def one : Nat := Nat.pow 2 1074

/-- The first magnitude that is too large. -/
def limit : Nat := Nat.pow 2 2098

theorem limit_pos : 0 < limit := Nat.two_pow_pos 2098

/-- The distance from a magnitude of `k` units to the next larger one. -/
def spacing (k : Nat) : Nat := Nat.pow 2 (k.log2 - 52)

/-- A magnitude with at most 53 significant bits, below the limit. -/
def Representable (k : Nat) : Prop := spacing k ∣ k ∧ k < limit

instance (k : Nat) : Decidable (Representable k) :=
  inferInstanceAs (Decidable (_ ∧ _))

end Binary64

inductive Binary64 where
  | nan
  | infinity (negative : Bool)
  | finite (negative : Bool) (units : Nat) (exact : Binary64.Representable units)
deriving DecidableEq

namespace Binary64

/-- The whole number nearest to `num / den`; a half goes to the even neighbour. -/
def roundHalfEven (num den : Nat) : Nat :=
  let q := num / den
  let r := num % den
  if 2 * r < den ∨ (2 * r = den ∧ q % 2 = 0) then q else q + 1

/-- The magnitude with at most 53 significant bits that is nearest to `num / den`. -/
def roundMagnitude (num den : Nat) : Nat :=
  let step := spacing (num / den)
  roundHalfEven num (den * step) * step

theorem roundHalfEven_le_succ (num den : Nat) : roundHalfEven num den ≤ num / den + 1 := by
  simp only [roundHalfEven]; split <;> omega

theorem spacing_dvd_of_le {n s : Nat} (h : n ≤ Nat.pow 2 53) :
    spacing (n * Nat.pow 2 s) ∣ n * Nat.pow 2 s := by
  simp only [spacing, Nat.pow_eq] at h ⊢
  by_cases zero : n = 0
  · subst zero; simp
  have positive : n * 2 ^ s ≠ 0 := Nat.mul_ne_zero zero (Nat.pos_iff_ne_zero.1 (Nat.two_pow_pos s))
  by_cases top : n = 2 ^ 53
  · subst top
    rw [← Nat.pow_add, Nat.log2_two_pow]
    exact Nat.pow_dvd_pow 2 (by omega)
  · have small : n < 2 ^ 53 := Nat.lt_of_le_of_ne h top
    have : (n * 2 ^ s).log2 < 53 + s := (Nat.log2_lt positive).2 (by
      rw [Nat.pow_add]; exact Nat.mul_lt_mul_of_pos_right small (Nat.two_pow_pos s))
    exact Nat.dvd_trans (Nat.pow_dvd_pow 2 (by omega)) (Nat.dvd_mul_left _ _)

theorem quotient_lt (num den : Nat) : num / (den * spacing (num / den)) < Nat.pow 2 53 := by
  rw [← Nat.div_div_eq_div_mul, spacing]
  simp only [Nat.pow_eq]
  by_cases zero : num / den = 0
  · rw [zero]; simp
  rw [Nat.div_lt_iff_lt_mul (Nat.two_pow_pos _), ← Nat.pow_add]
  exact Nat.lt_of_lt_of_le Nat.lt_log2_self (Nat.pow_le_pow_right (by omega) (by omega))

theorem spacing_dvd_roundMagnitude (num den : Nat) :
    spacing (roundMagnitude num den) ∣ roundMagnitude num den := by
  have h := roundHalfEven_le_succ num (den * spacing (num / den))
  have := quotient_lt num den
  exact spacing_dvd_of_le (by omega)

def zero (negative : Bool) : Binary64 := .finite negative 0 ⟨Nat.dvd_zero _, limit_pos⟩

/-- The number nearest to `num / den` units: infinite when the nearest magnitude is too large. -/
def ofRatio (negative : Bool) (num den : Nat) : Binary64 :=
  if h : roundMagnitude num den < limit then
    .finite negative (roundMagnitude num den) ⟨spacing_dvd_roundMagnitude num den, h⟩
  else .infinity negative

def ofNat (n : Nat) : Binary64 := ofRatio false (n * one) 1

def ofInt (i : Int) : Binary64 := ofRatio (i < 0) (i.natAbs * one) 1

instance : Inhabited Binary64 := ⟨zero false⟩

def isFinite : Binary64 → Bool
  | finite .. => true
  | _ => false

def isNaN : Binary64 → Bool
  | nan => true
  | _ => false

/-- Where a number stands on the line of all numbers; the two zeros stand in one place, the
infinities beyond the limit. Not a number stands nowhere. -/
def rank? : Binary64 → Option Int
  | nan => none
  | infinity negative => some (if negative then -limit else limit)
  | finite negative units _ => some (if negative then -units else units)

protected def compare (test : Int → Int → Bool) (x y : Binary64) : Bool :=
  match x.rank?, y.rank? with
  | some i, some j => test i j
  | _, _ => false

protected def lt : Binary64 → Binary64 → Bool := Binary64.compare fun i j => i < j

protected def le : Binary64 → Binary64 → Bool := Binary64.compare fun i j => i ≤ j

/-- Equality as numbers: the zeros are equal and not a number equals nothing. -/
def same : Binary64 → Binary64 → Bool := Binary64.compare fun i j => i = j

def isZero : Binary64 → Bool
  | finite _ units _ => units = 0
  | _ => false

/-- Not a number gives way to the other side. -/
protected def min (x y : Binary64) : Binary64 := if x.isNaN || y.le x then y else x

protected def max (x y : Binary64) : Binary64 := if x.isNaN || x.le y then y else x

end Binary64
end Montage
