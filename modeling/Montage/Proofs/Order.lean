import Montage.Binary64.Arithmetic

/-! The order of numbers, as the order of the whole numbers they stand at. Numbers that are equal stand at
one place, and the smaller or larger of two numbers stands at the smaller or larger place. -/
namespace Montage.Binary64

theorem rank?_zero : rank? 0 = some 0 := by decide +kernel

theorem exists_rank? {x : Binary64} (finite : x.isFinite = true) : ∃ i, x.rank? = some i := by
  cases x with
  | nan => cases finite
  | infinity => cases finite
  | finite negative units => exact ⟨_, rfl⟩

theorem lt_zero_eq_false_iff {x : Binary64} {i : Int} (h : x.rank? = some i) :
    x.lt 0 = false ↔ 0 ≤ i := by
  simp [Binary64.lt, Binary64.compare, h, rank?_zero]

theorem le_eq_false_iff {x y : Binary64} {i j : Int} (hx : x.rank? = some i)
    (hy : y.rank? = some j) : x.le y = false ↔ j < i := by
  simp [Binary64.le, Binary64.compare, hx, hy]

theorem lt_eq_false_iff_le {x y : Binary64} (hx : x.isFinite = true) (hy : y.isFinite = true) :
    x.lt y = false ↔ y.le x = true := by
  obtain ⟨i, rank_x⟩ := exists_rank? hx
  obtain ⟨j, rank_y⟩ := exists_rank? hy
  simp [Binary64.lt, Binary64.le, Binary64.compare, rank_x, rank_y]

theorem le_eq_false_iff_lt {x y : Binary64} (hx : x.isFinite = true) (hy : y.isFinite = true) :
    x.le y = false ↔ y.lt x = true := by
  obtain ⟨i, rank_x⟩ := exists_rank? hx
  obtain ⟨j, rank_y⟩ := exists_rank? hy
  simp [Binary64.lt, Binary64.le, Binary64.compare, rank_x, rank_y]

theorem zero_isFinite : (0 : Binary64).isFinite = true := by decide +kernel

theorem lt_zero_eq_false_of_le {x y : Binary64} (hx : x.isFinite = true) (hy : y.isFinite = true)
    (above : x.lt 0 = false) (order : y.le x = false) : y.lt 0 = false := by
  obtain ⟨i, rank_x⟩ := exists_rank? hx
  obtain ⟨j, rank_y⟩ := exists_rank? hy
  rw [lt_zero_eq_false_iff rank_x] at above
  rw [le_eq_false_iff rank_y rank_x] at order
  rw [lt_zero_eq_false_iff rank_y]
  omega

theorem units_eq_zero_of_lt {units : Nat} {exact : Representable units}
    (above : (finite true units exact).lt 0 = false) : units = 0 := by
  rw [lt_zero_eq_false_iff (i := -units) rfl] at above
  omega

theorem rank?_infinity (negative : Bool) :
    (infinity negative).rank? = some (if negative then -(limit : Int) else limit) := rfl

theorem isNaN_iff {x : Binary64} : x.isNaN = true ↔ x.rank? = none := by
  cases x with
  | nan => exact iff_of_true rfl rfl
  | infinity | finite => exact iff_of_false (by rintro ⟨⟩) (by rintro ⟨⟩)

theorem isNaN_eq_false_iff {x : Binary64} : x.isNaN = false ↔ ∃ i, x.rank? = some i := by
  rw [← Bool.not_eq_true, isNaN_iff]
  exact Option.ne_none_iff_exists'

theorem isZero_iff {x : Binary64} : x.isZero = true ↔ x.rank? = some 0 := by
  cases x with
  | nan => exact iff_of_false (by rintro ⟨⟩) (by rintro ⟨⟩)
  | infinity negative =>
    have positive := limit_pos
    refine iff_of_false (by rintro ⟨⟩) ?_
    rw [rank?_infinity, Option.some.injEq]
    split <;> omega
  | finite negative units => cases negative <;> simp [isZero, rank?]

theorem isFinite_iff {x : Binary64} {i : Int} (h : x.rank? = some i) :
    x.isFinite = true ↔ -limit < i ∧ i < limit := by
  cases x with
  | nan => cases h
  | infinity negative =>
    cases h
    refine iff_of_false (by rintro ⟨⟩) ?_
    split <;> omega
  | finite negative units exact =>
    have below : units < limit := exact.2
    cases h
    refine iff_of_true rfl ?_
    split <;> omega

theorem isFinite_of_rank?_eq {x y : Binary64} (same : x.rank? = y.rank?)
    (finite : x.isFinite = true) : y.isFinite = true := by
  obtain ⟨i, place⟩ := exists_rank? finite
  exact (isFinite_iff (same.symm.trans place)).2 ((isFinite_iff place).1 finite)

theorem lt_iff {x y : Binary64} {i j : Int} (hx : x.rank? = some i) (hy : y.rank? = some j) :
    x.lt y = true ↔ i < j := by
  simp [Binary64.lt, Binary64.compare, hx, hy]

theorem le_iff {x y : Binary64} {i j : Int} (hx : x.rank? = some i) (hy : y.rank? = some j) :
    x.le y = true ↔ i ≤ j := by
  simp [Binary64.le, Binary64.compare, hx, hy]

/-- Equal as numbers: the two zeros are equal, and not a number equals itself. -/
def Equals (x y : Binary64) : Prop := x = y ∨ x.isZero = true ∧ y.isZero = true

theorem equals_iff {x y : Binary64} : x.Equals y ↔ x.rank? = y.rank? := by
  constructor
  · rintro (rfl | ⟨zero_x, zero_y⟩)
    · rfl
    · rw [isZero_iff.1 zero_x, isZero_iff.1 zero_y]
  · intro same
    unfold Equals
    cases x with
    | nan =>
      cases y with
      | nan => exact .inl rfl
      | infinity | finite => cases same
    | infinity a =>
      cases y with
      | nan => cases same
      | infinity b =>
        have signs : a = b := by
          have positive := limit_pos
          rw [rank?_infinity, rank?_infinity, Option.some.injEq] at same
          cases a <;> cases b <;> simp only [Bool.false_eq_true, reduceIte] at same ⊢ <;> omega
        exact .inl (signs ▸ rfl)
      | finite b n => cases isFinite_of_rank?_eq same.symm rfl
    | finite a m =>
      cases y with
      | nan => cases same
      | infinity b => cases isFinite_of_rank?_eq same rfl
      | finite b n => cases a <;> cases b <;> simp [rank?] at same <;> simp [isZero] <;> omega

/-- The same number, where zero has no sign. -/
def plain (x : Binary64) : Binary64 := if x.isZero then 0 else x

theorem rank?_plain (x : Binary64) : x.plain.rank? = x.rank? := by
  unfold plain
  split
  · rename_i nothing
    rw [rank?_zero, isZero_iff.1 nothing]
  · rfl

theorem plain_equals (x : Binary64) : x.plain.Equals x := equals_iff.2 x.rank?_plain

theorem isFinite_plain {x : Binary64} (finite : x.isFinite = true) : x.plain.isFinite = true := by
  unfold plain
  split
  · exact zero_isFinite
  · exact finite

theorem plain_plain (x : Binary64) : x.plain.plain = x.plain := by
  by_cases nothing : x.isZero = true <;> simp [plain, nothing]

/-- A choice between two numbers chooses between their places; what stands nowhere gives way. -/
theorem rank?_choice {x y : Binary64} {second : Bool} {f : Int → Int → Int}
    (nowhere : y.rank? = none → second = false)
    (places : ∀ i j, x.rank? = some i → y.rank? = some j → f i j = if second then j else i) :
    (if x.isNaN || second then y else x).rank? = x.rank?.merge f y.rank? := by
  cases hx : x.rank? with
  | none => simp [isNaN_iff.2 hx]
  | some i =>
    have number : x.isNaN = false := isNaN_eq_false_iff.2 ⟨i, hx⟩
    cases hy : y.rank? with
    | none => simp [number, nowhere hy, hx]
    | some j =>
      have chosen := places i j hx hy
      cases second <;> simp_all

theorem rank?_min (x y : Binary64) : (x.min y).rank? = x.rank?.merge min y.rank? := by
  apply rank?_choice
  · intro nowhere
    simp [Binary64.le, Binary64.compare, nowhere]
  · intro i j hx hy
    simp only [le_iff hy hx]
    split <;> omega

theorem rank?_max (x y : Binary64) : (x.max y).rank? = x.rank?.merge max y.rank? := by
  apply rank?_choice
  · intro nowhere
    cases hx : x.rank? <;> simp [Binary64.le, Binary64.compare, nowhere, hx]
  · intro i j hx hy
    simp only [le_iff hx hy]
    split <;> omega

end Montage.Binary64
