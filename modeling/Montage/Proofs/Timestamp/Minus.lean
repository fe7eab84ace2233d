import Montage.Proofs.Timestamp.Clock

/-! What becomes of a minus sign in front of a clock. Each component is asked for its own sign, and zero
has none that counts, so the sign is lost where the first component reads as zero: the others then
count as if it were not there. Before any other number the clock is refused. -/
namespace Montage

theorem Decimal.sign_of_toBinary64 {d : Decimal} {sign negative : Bool} {units : Nat}
    {exact : Binary64.Representable units}
    (read : d.toBinary64 sign = .finite negative units exact) : negative = sign := by
  unfold toBinary64 at read
  simp only at read
  split at read
  · cases read
    rfl
  · split at read
    · cases read
    · unfold Binary64.ofRatio at read
      split at read
      · cases read
        rfl
      · cases read

namespace Binary64

/-- Text behind a minus sign reads as a number with a minus sign, also where this is zero. -/
theorem exists_of_readChars?_minus {cs : List Char} {x : Binary64}
    (reads : readChars? ('-' :: cs) = some x) (finite : x.isFinite = true) :
    ∃ units exact, x = .finite true units exact := by
  simp only [readChars?] at reads
  split at reads
  · cases reads
    cases finite
  · split at reads
    · cases reads
      cases finite
    · obtain ⟨d, -, number⟩ := Option.map_eq_some_iff.1 reads
      cases x with
      | nan => cases finite
      | infinity => cases finite
      | finite negative units exact =>
        rw [Decimal.sign_of_toBinary64 number]
        exact ⟨units, exact, rfl⟩

end Binary64

namespace Timestamp

open Binary64 (readChars?)

theorem shows_minus_iff {cs : List Char} {x : Binary64} :
    Shows ('-' :: cs) x ↔ readChars? ('-' :: cs) = some (.zero true) ∧ x = .zero true := by
  constructor
  · rintro ⟨reads, finite, above⟩
    obtain ⟨units, exact, rfl⟩ := Binary64.exists_of_readChars?_minus reads finite
    have nothing : units = 0 := Binary64.units_eq_zero_of_lt
      ((Binary64.lt_eq_false_iff_le finite Binary64.zero_isFinite).2 above)
    subst nothing
    exact ⟨reads, rfl⟩
  · rintro ⟨reads, rfl⟩
    exact ⟨reads, rfl, Binary64.zero_le_zero true⟩

/-- A first component of zero makes no difference to the time. -/
theorem total_cons_of_isZero {x : Binary64} (nothing : x.isZero = true) (values : List Binary64) :
    total (x :: values) = total values := by
  have finite : x.isFinite = true := by
    cases x with
    | nan => cases nothing
    | infinity => cases nothing
    | finite => rfl
  rw [total_cons finite, Binary64.plain, if_pos nothing, total]

theorem IsClock.of_text {s : String} {t after : List Char} (text : s.toList = t ++ after)
    (first : ∃ c ∈ t.head?, Text.isBlank c = false)
    (blank : ∀ c ∈ after, Text.isBlank c = true)
    (last : ∀ c ∈ t.getLast?, Text.isBlank c = false) : IsClock s t (Text.splitOn ':' t) := by
  obtain ⟨c, head, visible⟩ := first
  have nonempty : t ≠ [] := by
    rintro rfl
    cases head
  have trimmed : Text.IsTrimmed s.toList t := by
    refine ⟨⟨[], after, text, by simp, blank⟩, ?_, last⟩
    intro d other
    cases Option.some.inj (head.symm.trans other)
    exact visible
  exact isClock_iff.2 ⟨trimmed.eq_trim, nonempty, rfl⟩

/-- A component in front that can only be zero is left out of the count. -/
theorem parseClock_zero_lead {s : String} {t lead : List Char} {others : List (List Char)}
    (clock : IsClock s t (lead :: others)) {x : Binary64} (nothing : x.isZero = true) {P : Prop}
    (shows : ∀ y, Shows lead y ↔ P ∧ y = x) {time : Binary64} : parseClock s = .ok time ↔
      P ∧ others.length ≤ 2 ∧ (∃ values, List.Forall₂ Shows others values ∧ total values = time) ∧
        maximum.lt time = false := by
  rw [parseClock_eq_ok_iff clock]
  simp only [List.forall₂_cons_left_iff, shows, List.length_cons]
  constructor
  · rintro ⟨few, ⟨_, ⟨y, values, ⟨holds, rfl⟩, shown, rfl⟩, sum⟩, within⟩
    rw [total_cons_of_isZero nothing] at sum
    exact ⟨holds, by omega, ⟨values, shown, sum⟩, within⟩
  · rintro ⟨holds, few, ⟨values, shown, sum⟩, within⟩
    refine ⟨by omega, ⟨x :: values, ⟨x, values, ⟨holds, rfl⟩, shown, rfl⟩, ?_⟩, within⟩
    rw [total_cons_of_isZero nothing, sum]

theorem shows_zero_iff (x : Binary64) : Shows ['0'] x ↔ True ∧ x = 0 := by
  constructor
  · rintro ⟨read, -, -⟩
    exact ⟨trivial, Option.some.inj (read.symm.trans Binary64.readChars?_zero)⟩
  · rintro ⟨-, shown⟩
    rw [shown]
    exact ⟨Binary64.readChars?_zero, Binary64.zero_isFinite, Binary64.zero_le_self⟩

/-- White space behind a clock is left out, and the minus sign stands in the first component. -/
theorem isClock_minus {s : String} {t after : List Char} (text : s.toList = t ++ after)
    (blank : ∀ c ∈ after, Text.isBlank c = true) (last : ∀ c ∈ t.getLast?, Text.isBlank c = false) :
    IsClock ("-" ++ s) ('-' :: t) (Text.splitOn ':' ('-' :: t)) :=
  .of_text (by simp [String.toList_append, text]) ⟨'-', rfl, rfl⟩ blank (Text.visible_last [] rfl last)

/-- A clock of one component with a minus sign is refused or zero. -/
theorem parseClock_minus_alone {s : String} (alone : ':' ∉ s.toList) {time : Binary64}
    (read : parseClock ("-" ++ s) = .ok time) : time = 0 := by
  obtain ⟨t, after, parts, blank, last⟩ := Text.exists_blank_end s.toList
  have clock := isClock_minus parts blank last
  have free : ':' ∉ '-' :: t := by
    rw [parts] at alone
    simpa using fun among => alone (List.mem_append_left after among)
  rw [Text.splitOn_of_not_mem free] at clock
  obtain ⟨-, -, ⟨values, shown, rfl⟩, -⟩ :=
    (parseClock_zero_lead clock (x := .zero true) rfl fun y => shows_minus_iff).1 read
  cases shown
  rfl

/-- In front of further components a minus sign is lost just where a zero follows it. -/
theorem parseClock_minus_iff {first : String} (free : ':' ∉ first.toList) (rest : String)
    (time : Binary64) : parseClock ("-" ++ first ++ ":" ++ rest) = .ok time ↔
      Binary64.read? ("-" ++ first) = some (.zero true) ∧ parseClock ("0:" ++ rest) = .ok time := by
  obtain ⟨t, after, parts, blank, last⟩ := Text.exists_blank_end rest.toList
  have minus : IsClock ("-" ++ first ++ ":" ++ rest) ('-' :: first.toList ++ ':' :: t)
      (Text.splitOn ':' ('-' :: first.toList ++ ':' :: t)) :=
    .of_text (by simp [String.toList_append, parts]) ⟨'-', rfl, rfl⟩ blank (Text.visible_last _ rfl last)
  have plain : IsClock ("0:" ++ rest) (['0'] ++ ':' :: t) (Text.splitOn ':' (['0'] ++ ':' :: t)) :=
    .of_text (by simp [String.toList_append, parts]) ⟨'0', rfl, rfl⟩ blank (Text.visible_last _ rfl last)
  rw [Text.splitOn_append_separator (by simpa using free)] at minus
  rw [Text.splitOn_append_separator (by decide)] at plain
  have nothing : (0 : Binary64).isZero = true := Binary64.isZero_iff.2 Binary64.rank?_zero
  have read : Binary64.read? ("-" ++ first) = readChars? ('-' :: first.toList) := by
    simp [Binary64.read?, String.toList_append]
  rw [parseClock_zero_lead minus (x := .zero true) rfl fun y => shows_minus_iff,
    parseClock_zero_lead plain nothing shows_zero_iff, true_and, read]

theorem IsClock.exists_minus {s : String} {t first : List Char} {others : List (List Char)}
    (clock : IsClock ("-" ++ s) t (first :: others)) : ∃ cs, first = '-' :: cs := by
  obtain ⟨u, after, parts, blank, last⟩ := Text.exists_blank_end s.toList
  obtain ⟨text, -, parted⟩ := isClock_iff.1 clock
  obtain ⟨piece, pieces, split⟩ := List.exists_cons_of_ne_nil (Text.splitOn_ne_nil ':' u)
  rw [text, ← (isClock_iff.1 (isClock_minus parts blank last)).1, Text.splitOn, split] at parted
  exact ⟨piece, (List.cons.inj parted).1⟩

/-- Before a number that is not zero a minus sign is always reported. -/
theorem parseClock_minus_of_ne_zero {s : String} {t first : List Char} {others : List (List Char)}
    (clock : IsClock ("-" ++ s) t (first :: others)) (few : others.length ≤ 2) {x : Binary64}
    (reads : readChars? first = some x) (finite : x.isFinite = true) (nonzero : x.isZero = false) :
    parseClock ("-" ++ s) = .error .negative := by
  obtain ⟨cs, rfl⟩ := clock.exists_minus
  obtain ⟨units, exact, rfl⟩ := Binary64.exists_of_readChars?_minus reads finite
  have below : (Binary64.finite true units exact).lt 0 = true := by
    have positive : units ≠ 0 := by simpa [Binary64.isZero] using nonzero
    rw [Binary64.lt_iff (i := -units) rfl Binary64.rank?_zero]
    omega
  have short : others.length < unitNames.length := by
    change others.length < 3
    omega
  have fault : Reads ("-" ++ s) (.error .negative) := by
    rw [← List.nil_append (_ :: others)] at clock
    exact .faulty clock (Nat.succ_le_succ few) (by simp) (List.getElem?_eq_getElem short)
      (.negative reads finite below)
  exact fault.parseClock_eq

theorem exists_first_component {s : String} (among : ':' ∈ s.toList) :
    ∃ first rest, s = first ++ ":" ++ rest ∧ ':' ∉ first.toList := by
  obtain ⟨first, rest, text, free⟩ := List.eq_append_cons_of_mem among
  refine ⟨String.ofList first, String.ofList rest, ?_, by simpa using free⟩
  apply String.toList_inj.1
  simpa [String.toList_append] using text

/-- A minus sign in front of a clock makes a time other than zero unreadable, except just where the
first of several components reads as zero: the others then show a time as if they stood behind a zero
without a sign. A first component that is not zero is always refused for its sign. -/
theorem minus_is_lost_before_zero_only (s : String) :
    ((∀ time, parseClock ("-" ++ s) = .ok time → time.isZero = true) ↔
      ∀ (first rest : String) time, s = first ++ ":" ++ rest → ':' ∉ first.toList →
        Binary64.read? ("-" ++ first) = some (.zero true) → parseClock ("0:" ++ rest) = .ok time →
        time.isZero = true) ∧
    (∀ (first rest : String) time, s = first ++ ":" ++ rest → ':' ∉ first.toList →
      (parseClock ("-" ++ s) = .ok time ↔
        Binary64.read? ("-" ++ first) = some (.zero true) ∧ parseClock ("0:" ++ rest) = .ok time)) ∧
    ∀ (t first : List Char) others x, IsClock ("-" ++ s) t (first :: others) → others.length ≤ 2 →
      readChars? first = some x → x.isFinite = true → x.isZero = false →
      parseClock ("-" ++ s) = .error .negative := by
  have lost : ∀ (first rest : String) time, s = first ++ ":" ++ rest → ':' ∉ first.toList →
      (parseClock ("-" ++ s) = .ok time ↔
        Binary64.read? ("-" ++ first) = some (.zero true) ∧ parseClock ("0:" ++ rest) = .ok time) := by
    rintro first rest time rfl free
    rw [← String.append_assoc, ← String.append_assoc]
    exact parseClock_minus_iff free rest time
  refine ⟨?_, lost, ?_⟩
  · constructor
    · intro kept first rest time text free zero read
      exact kept time ((lost first rest time text free).2 ⟨zero, read⟩)
    · intro kept time read
      by_cases among : ':' ∈ s.toList
      · obtain ⟨first, rest, text, free⟩ := exists_first_component among
        obtain ⟨zero, behind⟩ := (lost first rest time text free).1 read
        exact kept first rest time text free zero behind
      · rw [parseClock_minus_alone among read]
        exact Binary64.isZero_iff.2 Binary64.rank?_zero
  · intro t first others x clock few reads finite nonzero
    exact parseClock_minus_of_ne_zero clock few reads finite nonzero

theorem signed_zeros_and_ones_are_told_apart :
    (parseClock ("-" ++ "0") = .ok 0 ∧
        ∀ time, parseClock ("-" ++ "0") = .ok time → time.isZero = true) ∧
      parseClock ("-" ++ "0:05") = .ok 5 ∧ parseClock ("-" ++ "1:05") = .error .negative := by
  have alone : ∀ time, parseClock ("-" ++ "0") = .ok time → time.isZero = true := by
    apply (minus_is_lost_before_zero_only "0").1.2
    intro first rest time text
    have among : ':' ∈ "0".toList := by
      rw [text]
      simp [String.toList_append]
    cases among with
    | tail _ among => cases among
  have split := (minus_is_lost_before_zero_only "0:05").2.1 "0" "05" 5 rfl (by decide)
  have lost : parseClock ("-" ++ "0:05") = .ok 5 := split.2 (by decide +kernel)
  have clock : IsClock ("-" ++ "1:05") "-1:05".toList ["-1".toList, "05".toList] :=
    isClock_iff.2 (by decide +kernel)
  have reads : readChars? "-1".toList = some (-1) := by decide +kernel
  have refused := (minus_is_lost_before_zero_only "1:05").2.2 _ _ _ _ clock (by decide) reads
    (by decide +kernel) (by decide +kernel)
  exact ⟨⟨by decide +kernel, alone⟩, lost, refused⟩

/-- Minus five seconds are read as five, and so they are where a first component is too small to be
told from zero. -/
theorem minus_five_seconds_are_read_as_five :
    parseClock ("-" ++ "0:05") = .ok 5 ∧ parseClock ("-" ++ "1e-400:05") = .ok 5 ∧
      ¬ ∀ (s : String) time, parseClock ("-" ++ s) = .ok time → time.isZero = true := by
  have lost : parseClock ("-" ++ "0:05") = .ok 5 := by decide +kernel
  have small : parseClock ("-" ++ "1e-400:05") = .ok 5 := by decide +kernel
  have nonzero : (5 : Binary64).isZero = false := by decide +kernel
  refine ⟨lost, small, ?_⟩
  intro law
  rw [law _ _ lost] at nonzero
  cases nonzero

end Timestamp
end Montage
