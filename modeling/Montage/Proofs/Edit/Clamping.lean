import Montage.Proofs.Edit

/-! Trims clamped to the length of a medium. The clamped end is the smaller of two numbers and the clamped
start the smaller of three, so clamping is told by the places of the numbers alone: not a number stands
nowhere and gives way, and a length below zero takes the start with it. -/
namespace Montage
namespace TrimRange

def Equals (t u : TrimRange) : Prop := t.start.Equals u.start ∧ t.stop.Equals u.stop

theorem equals_iff {t u : TrimRange} :
    t.Equals u ↔ t.start.rank? = u.start.rank? ∧ t.stop.rank? = u.stop.rank? := by
  unfold Equals
  rw [Binary64.equals_iff, Binary64.equals_iff]

theorem rank?_stop_clampedTo (t : TrimRange) (d : Binary64) :
    (t.clampedTo d).stop.rank? = t.stop.rank?.merge min d.rank? := t.stop.rank?_min d

/-- The start stands somewhere, whatever was clamped: zero takes the place of not a number. -/
theorem rank?_start_clampedTo (t : TrimRange) (d : Binary64) :
    (t.clampedTo d).start.rank? =
      (some (max (t.start.rank?.getD 0) 0)).merge min (t.clampedTo d).stop.rank? := by
  have raised : (t.start.max 0).rank? = some (max (t.start.rank?.getD 0) 0) := by
    rw [Binary64.rank?_max, Binary64.rank?_zero]
    cases t.start.rank? <;> simp
  rw [← raised]
  exact Binary64.rank?_min _ _

theorem clampedTo_congr (t : TrimRange) {d₁ d₂ : Binary64} (same : d₁.rank? = d₂.rank?) :
    (t.clampedTo d₁).Equals (t.clampedTo d₂) := by
  have stops : (t.clampedTo d₁).stop.rank? = (t.clampedTo d₂).stop.rank? := by
    rw [rank?_stop_clampedTo, rank?_stop_clampedTo, same]
  apply equals_iff.2
  rw [rank?_start_clampedTo, rank?_start_clampedTo, stops]
  exact ⟨rfl, rfl⟩

/-- What a first end takes from a start that is not below zero, a second end that is no larger takes
as well; raising the start to zero in between makes no difference. -/
theorem merge_min_raised {start : Int} (above : 0 ≤ start) (first second : Option Int) :
    (some (max (((some start).merge min first).getD 0) 0)).merge min (first.merge min second) =
      (some start).merge min (first.merge min second) := by
  cases first with
  | none =>
    have raised : max start 0 = start := by omega
    simp only [Option.merge_none_right, Option.getD_some, raised]
  | some i =>
    cases second with
    | none =>
      have lower : min (max (min start i) 0) i = min start i := by omega
      simp only [Option.merge_some_some, Option.merge_none_right, Option.getD_some, lower]
    | some j =>
      have lower : min (max (min start i) 0) (min i j) = min start (min i j) := by omega
      simp only [Option.merge_some_some, Option.getD_some, lower]

theorem clampedTo_clampedTo (t : TrimRange) (d₁ d₂ : Binary64) :
    ((t.clampedTo d₁).clampedTo d₂).Equals (t.clampedTo (d₁.min d₂)) := by
  have twice := rank?_stop_clampedTo (t.clampedTo d₁) d₂
  have stops : ((t.clampedTo d₁).clampedTo d₂).stop.rank? =
      (t.clampedTo (d₁.min d₂)).stop.rank? := by
    rw [twice, rank?_stop_clampedTo, rank?_stop_clampedTo, Binary64.rank?_min]
    exact (Option.associative_merge min).assoc _ _ _
  have above : 0 ≤ max (t.start.rank?.getD 0) 0 := by omega
  apply equals_iff.2
  refine ⟨?_, stops⟩
  rw [rank?_start_clampedTo (t.clampedTo d₁), rank?_start_clampedTo t (d₁.min d₂), ← stops, twice,
    rank?_start_clampedTo t d₁]
  exact merge_min_raised above _ _

theorem clampedTo_comm (t : TrimRange) (d₁ d₂ : Binary64) :
    ((t.clampedTo d₁).clampedTo d₂).Equals ((t.clampedTo d₂).clampedTo d₁) := by
  have least : (d₁.min d₂).rank? = (d₂.min d₁).rank? := by
    rw [Binary64.rank?_min, Binary64.rank?_min]
    exact (Option.commutative_merge min).comm _ _
  have one := equals_iff.1 (clampedTo_clampedTo t d₁ d₂)
  have other := equals_iff.1 (clampedTo_clampedTo t d₂ d₁)
  have same := equals_iff.1 (clampedTo_congr t least)
  exact equals_iff.2 ⟨one.1.trans (same.1.trans other.1.symm), one.2.trans (same.2.trans other.2.symm)⟩

theorem clampedTo_self (t : TrimRange) (d : Binary64) :
    ((t.clampedTo d).clampedTo d).Equals (t.clampedTo d) := by
  have least : d.min d = d := by
    unfold Binary64.min
    exact ite_self d
  simpa [least] using clampedTo_clampedTo t d d

theorem validate_eq_ok_iff_rank? {t : TrimRange} : t.validate = .ok () ↔
    ∃ i j, t.start.rank? = some i ∧ t.stop.rank? = some j ∧ 0 ≤ i ∧ i < j ∧ j < Binary64.limit := by
  rw [validate_eq_ok_iff]
  constructor
  · rintro ⟨finite_start, finite_stop, above, order⟩
    obtain ⟨i, start⟩ := Binary64.exists_rank? finite_start
    obtain ⟨j, stop⟩ := Binary64.exists_rank? finite_stop
    exact ⟨i, j, start, stop, (Binary64.lt_zero_eq_false_iff start).1 above,
      (Binary64.le_eq_false_iff stop start).1 order, ((Binary64.isFinite_iff stop).1 finite_stop).2⟩
  · rintro ⟨i, j, start, stop, above, order, below⟩
    refine ⟨?_, ?_, ?_, ?_⟩
    · apply (Binary64.isFinite_iff start).2
      omega
    · apply (Binary64.isFinite_iff stop).2
      omega
    · exact (Binary64.lt_zero_eq_false_iff start).2 above
    · exact (Binary64.le_eq_false_iff stop start).2 order

/-- Within a medium of a known length a valid trim loses what lies behind the end of the medium. -/
theorem clampedTo_of_valid {t : TrimRange} {d : Binary64} {i j k : Int}
    (start : t.start.rank? = some i) (stop : t.stop.rank? = some j) (length : d.rank? = some k)
    (above : 0 ≤ i) :
    (t.clampedTo d).start.rank? = some (min i (min j k)) ∧
      (t.clampedTo d).stop.rank? = some (min j k) := by
  have last : (t.clampedTo d).stop.rank? = some (min j k) := by
    rw [rank?_stop_clampedTo, stop, length, Option.merge_some_some]
  have raised : max i 0 = i := by omega
  refine ⟨?_, last⟩
  rw [rank?_start_clampedTo, last, start, Option.getD_some, raised, Option.merge_some_some]

/-- A trim is left empty just if the medium ends before it starts. -/
theorem validate_clampedTo_iff {t : TrimRange} {d : Binary64} {i j k : Int}
    (start : t.start.rank? = some i) (stop : t.stop.rank? = some j) (length : d.rank? = some k)
    (above : 0 ≤ i) (order : i < j) (below : j < Binary64.limit) :
    (t.clampedTo d).validate = .ok () ↔ i < k := by
  obtain ⟨first, last⟩ := clampedTo_of_valid start stop length above
  rw [validate_eq_ok_iff_rank?]
  constructor
  · rintro ⟨i', j', first', last', -, order', -⟩
    cases first.symm.trans first'
    cases last.symm.trans last'
    omega
  · intro within
    exact ⟨_, _, first, last, by omega, by omega, by omega⟩

/-- Clamping to one medium and then to another is clamping to the shorter one, so that it can be
repeated and done in any order, whatever the numbers are. A valid trim stays within its own end and
the medium, and is still valid just if it starts before the end of the medium. -/
theorem clamping_obeys_its_laws (t : TrimRange) :
    (∀ d₁ d₂, ((t.clampedTo d₁).clampedTo d₂).Equals (t.clampedTo (d₁.min d₂))) ∧
    (∀ d, ((t.clampedTo d).clampedTo d).Equals (t.clampedTo d)) ∧
    (∀ d₁ d₂, ((t.clampedTo d₁).clampedTo d₂).Equals ((t.clampedTo d₂).clampedTo d₁)) ∧
    (t.validate = .ok () → ∀ d : Binary64, d.isNaN = false →
      (t.clampedTo d).stop.le t.stop = true ∧ (t.clampedTo d).stop.le d = true ∧
      (t.clampedTo d).start.le (t.clampedTo d).stop = true ∧
      ((t.clampedTo d).validate = .ok () ↔ t.start.lt d = true) ∧
      (t.start.lt d = true → (t.clampedTo d).start.Equals t.start)) := by
  refine ⟨clampedTo_clampedTo t, clampedTo_self t, clampedTo_comm t, ?_⟩
  intro valid d number
  obtain ⟨i, j, start, stop, above, order, below⟩ := validate_eq_ok_iff_rank?.1 valid
  obtain ⟨k, length⟩ : ∃ k, d.rank? = some k := Binary64.isNaN_eq_false_iff.1 number
  obtain ⟨first, last⟩ := clampedTo_of_valid start stop length above
  simp only [Binary64.le_iff last stop, Binary64.le_iff last length, Binary64.le_iff first last,
    Binary64.lt_iff start length]
  refine ⟨by omega, by omega, by omega, validate_clampedTo_iff start stop length above order below, ?_⟩
  intro within
  have kept : min i (min j k) = i := by omega
  rw [Binary64.equals_iff, first, kept, start]

/-- A start at negative zero is no obstacle: it stays where it is. -/
theorem trim_from_negative_zero_is_clamped :
    (⟨.zero true, 5⟩ : TrimRange).validate = .ok () ∧ (2 : Binary64).isNaN = false ∧
      ((⟨.zero true, 5⟩ : TrimRange).clampedTo 2).validate = .ok () ∧
      ((⟨.zero true, 5⟩ : TrimRange).clampedTo 2).start.Equals (.zero true) := by
  have valid : (⟨.zero true, 5⟩ : TrimRange).validate = .ok () := by decide +kernel
  have number : (2 : Binary64).isNaN = false := by decide +kernel
  have within : (Binary64.zero true).lt 2 = true := by decide +kernel
  obtain ⟨-, -, -, laws⟩ := clamping_obeys_its_laws ⟨.zero true, 5⟩
  obtain ⟨-, -, -, stays_valid, unchanged⟩ := laws valid 2 number
  exact ⟨valid, number, stays_valid.2 within, unchanged within⟩

end TrimRange
end Montage
