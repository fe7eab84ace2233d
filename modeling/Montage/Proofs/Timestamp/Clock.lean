import Montage.Proofs.Binary64.Amount
import Montage.Proofs.Binary64.PlainText
import Montage.Proofs.Except

/-! Which texts are clocks, what time they show, and what is wrong with the others. The language is said
without the reader: a text between white space, its components between colons, and a unit for each
component by its place from the right. -/
namespace Montage
namespace Timestamp

open Binary64 (readChars?)

/-- The units of a clock, from the right. -/
def unitNames : List String := ["seconds", "minutes", "hours"]

structure IsClock (s : String) (t : List Char) (parts : List (List Char)) : Prop where
  trimmed : Text.IsTrimmed s.toList t
  nonempty : t ≠ []
  joined : [':'].intercalate parts = t
  free : ∀ part ∈ parts, ':' ∉ part

structure Shows (part : List Char) (x : Binary64) : Prop where
  reads : readChars? part = some x
  finite : x.isFinite = true
  above : Binary64.le 0 x = true

inductive Faulty (name : String) (part : List Char) : TimestampError → Prop where
  | unreadable (reads : readChars? part = none) :
      Faulty name part (.invalidValue name (String.ofList part))
  | unbounded {x : Binary64} (reads : readChars? part = some x) (infinite : x.isFinite = false) :
      Faulty name part (.invalidValue name (String.ofList part))
  | negative {x : Binary64} (reads : readChars? part = some x) (finite : x.isFinite = true)
      (below : x.lt 0 = true) : Faulty name part .negative

/-- Each component counts sixty of the next one. -/
def total (values : List Binary64) : Binary64 := values.foldl (fun time x => time * 60 + x) 0

inductive Reads (s : String) : Except TimestampError Binary64 → Prop where
  | empty (blank : Text.IsTrimmed s.toList []) : Reads s (.error .empty)
  | crowded {t : List Char} {parts : List (List Char)} (clock : IsClock s t parts)
      (many : 3 < parts.length) : Reads s (.error (.invalidFormat (String.ofList t)))
  | faulty {t part : List Char} {before after : List (List Char)} {name : String}
      {err : TimestampError} (clock : IsClock s t (before ++ part :: after))
      (few : (before ++ part :: after).length ≤ 3) (shown : ∀ b ∈ before, ∃ x, Shows b x)
      (unit : unitNames[after.length]? = some name) (fault : Faulty name part err) :
      Reads s (.error err)
  | lengthy {t : List Char} {parts : List (List Char)} {values : List Binary64}
      (clock : IsClock s t parts) (few : parts.length ≤ 3) (shown : List.Forall₂ Shows parts values)
      (long : maximum.lt (total values) = true) : Reads s (.error (.exceedsMaximum maximum))
  | time {t : List Char} {parts : List (List Char)} {values : List Binary64}
      (clock : IsClock s t parts) (few : parts.length ≤ 3) (shown : List.Forall₂ Shows parts values)
      (within : maximum.lt (total values) = false) : Reads s (.ok (total values))

/-! Components one by one -/

theorem readComponent_eq_ok_iff {name : String} {part : List Char} {x : Binary64} :
    readComponent name part = .ok x ↔ Shows part x := by
  unfold readComponent
  constructor
  · intro read
    split at read
    · rename_i y reads
      split at read
      · cases read
      · rename_i finite
        simp only [Bool.not_eq_true', Bool.not_eq_false] at finite
        split at read
        · cases read
        · rename_i above
          cases read
          exact ⟨reads, finite,
            (Binary64.lt_eq_false_iff_le finite Binary64.zero_isFinite).1 (by simpa using above)⟩
    · cases read
  · rintro ⟨reads, finite, above⟩
    have not_below := (Binary64.lt_eq_false_iff_le finite Binary64.zero_isFinite).2 above
    simp [reads, finite, not_below]

theorem readComponent_eq_error_iff {name : String} {part : List Char} {err : TimestampError} :
    readComponent name part = .error err ↔ Faulty name part err := by
  unfold readComponent
  constructor
  · intro failed
    split at failed
    · rename_i x reads
      split at failed
      · rename_i infinite
        cases failed
        exact .unbounded reads (by simpa using infinite)
      · rename_i finite
        split at failed
        · rename_i below
          cases failed
          exact .negative reads (by simpa using finite) below
        · cases failed
    · rename_i unread
      cases failed
      exact .unreadable unread
  · rintro (reads | ⟨reads, infinite⟩ | ⟨reads, finite, below⟩)
    · simp [reads]
    · simp [reads, infinite]
    · simp [reads, finite, below]

theorem readComponents_eq_ok_iff {names : List String} {parts : List (List Char)}
    (paired : names.length = parts.length) {time result : Binary64} :
    readComponents time (names.zip parts) = .ok result ↔ ∃ values, List.Forall₂ Shows parts values ∧
      values.foldl (fun time x => time * 60 + x) time = result := by
  induction parts generalizing names time with
  | nil => simp [readComponents]
  | cons part parts ih =>
    obtain ⟨name, names, rfl⟩ := List.exists_cons_of_length_eq_add_one paired
    simp only [List.zip_cons_cons, readComponents, bind_eq_ok_iff, readComponent_eq_ok_iff,
      ih (Nat.succ.inj paired), List.forall₂_cons_left_iff]
    constructor
    · rintro ⟨x, first, values, others, sum⟩
      exact ⟨x :: values, ⟨x, values, first, others, rfl⟩, sum⟩
    · rintro ⟨_, ⟨x, values, first, others, rfl⟩, sum⟩
      exact ⟨x, first, values, others, sum⟩

/-- The first component that shows no number is reported, whatever stands behind it. -/
theorem readComponents_eq_error_iff {names : List String} {parts : List (List Char)}
    (paired : names.length = parts.length) {time : Binary64} {err : TimestampError} :
    readComponents time (names.zip parts) = .error err ↔ ∃ before part after name,
      parts = before ++ part :: after ∧ names[before.length]? = some name ∧
        (∀ b ∈ before, ∃ x, Shows b x) ∧ Faulty name part err := by
  induction parts generalizing names time with
  | nil => simp [readComponents]
  | cons first parts ih =>
    obtain ⟨name, names, rfl⟩ := List.exists_cons_of_length_eq_add_one paired
    simp only [List.zip_cons_cons, readComponents, bind_eq_error_iff, readComponent_eq_ok_iff,
      readComponent_eq_error_iff, ih (Nat.succ.inj paired)]
    constructor
    · rintro (fault | ⟨x, shown, before, part, after, other, rfl, named, others, fault⟩)
      · exact ⟨[], first, parts, name, rfl, rfl, by simp, fault⟩
      · exact ⟨first :: before, part, after, other, rfl, by simpa using named,
          List.forall_mem_cons.2 ⟨⟨x, shown⟩, others⟩, fault⟩
    · rintro ⟨before, part, after, other, parted, named, shown, fault⟩
      cases before with
      | nil =>
        cases parted
        cases named
        exact .inl fault
      | cons b before =>
        cases parted
        obtain ⟨⟨x, head⟩, others⟩ := List.forall_mem_cons.1 shown
        exact .inr ⟨x, head, before, part, after, other, rfl, by simpa using named, others, fault⟩

/-! Whole clocks -/

theorem isClock_iff {s : String} {t : List Char} {parts : List (List Char)} :
    IsClock s t parts ↔ t = Text.trim s.toList ∧ t ≠ [] ∧ parts = Text.splitOn ':' t := by
  constructor
  · rintro ⟨trimmed, nonempty, joined, free⟩
    have parted : parts ≠ [] := by
      rintro rfl
      exact nonempty joined.symm
    exact ⟨trimmed.eq_trim, nonempty, (Text.splitOn_eq_iff.2 ⟨parted, joined, free⟩).symm⟩
  · rintro ⟨text, nonempty, parted⟩
    obtain ⟨-, joined, free⟩ := Text.splitOn_eq_iff.1 parted.symm
    exact ⟨Text.isTrimmed_iff.2 text, nonempty, joined, free⟩

theorem getElem?_drop_componentNames {before after : Nat} (few : before + 1 + after ≤ 3) :
    (componentNames.drop (3 - (before + 1 + after)))[before]? = unitNames[after]? := by
  have place : 3 - (before + 1 + after) + before = 3 - 1 - after := by omega
  have reversed : unitNames = componentNames.reverse := rfl
  have among : after < componentNames.length := by
    change after < 3
    omega
  rw [List.getElem?_drop, reversed, List.getElem?_reverse among, place]
  rfl

def timeOf (parts : List (List Char)) : Except TimestampError Binary64 :=
  readComponents 0 ((componentNames.drop (3 - parts.length)).zip parts)

section

variable {parts : List (List Char)}

theorem length_drop_componentNames (few : parts.length ≤ 3) :
    (componentNames.drop (3 - parts.length)).length = parts.length := by
  rw [List.length_drop]
  change 3 - (3 - parts.length) = parts.length
  omega

theorem timeOf_eq_ok_iff (few : parts.length ≤ 3) {time : Binary64} :
    timeOf parts = .ok time ↔ ∃ values, List.Forall₂ Shows parts values ∧ total values = time :=
  readComponents_eq_ok_iff (length_drop_componentNames few)

theorem timeOf_eq_error_iff (few : parts.length ≤ 3) {err : TimestampError} :
    timeOf parts = .error err ↔ ∃ before part after name, parts = before ++ part :: after ∧
      unitNames[after.length]? = some name ∧ (∀ b ∈ before, ∃ x, Shows b x) ∧
        Faulty name part err := by
  unfold timeOf
  rw [readComponents_eq_error_iff (length_drop_componentNames few)]
  refine exists_congr fun before => exists_congr fun part => exists_congr fun after =>
    exists_congr fun name => and_congr_right fun parted => ?_
  have length : parts.length = before.length + 1 + after.length := by
    simp only [parted, List.length_append, List.length_cons]
    omega
  rw [length, getElem?_drop_componentNames (length ▸ few)]

theorem parseClock_of_few {s : String} {t : List Char} (clock : IsClock s t parts)
    (few : parts.length ≤ 3) : parseClock s = (timeOf parts >>= fun time =>
      if maximum.lt time then .error (.exceedsMaximum maximum) else .ok time) := by
  obtain ⟨rfl, nonempty, rfl⟩ := isClock_iff.1 clock
  have fits : ¬ componentNames.length < (Text.splitOn ':' (Text.trim s.toList)).length :=
    Nat.not_lt.2 few
  unfold parseClock
  rw [if_neg nonempty, if_neg fits]
  rfl

end

theorem Reads.parseClock_eq {s : String} {result : Except TimestampError Binary64}
    (h : Reads s result) : parseClock s = result := by
  cases h with
  | empty blank =>
    unfold parseClock
    rw [if_pos blank.eq_trim.symm]
  | crowded clock many =>
    obtain ⟨rfl, nonempty, rfl⟩ := isClock_iff.1 clock
    have crowd : componentNames.length < (Text.splitOn ':' (Text.trim s.toList)).length := many
    unfold parseClock
    rw [if_neg nonempty, if_pos crowd]
  | faulty clock few shown unit fault =>
    have failed := (timeOf_eq_error_iff few).2 ⟨_, _, _, _, rfl, unit, shown, fault⟩
    rw [parseClock_of_few clock few, failed]
    rfl
  | lengthy clock few shown long =>
    have read := (timeOf_eq_ok_iff few).2 ⟨_, shown, rfl⟩
    simp only [parseClock_of_few clock few, read, bind, Except.bind, long, if_true]
  | time clock few shown within =>
    have read := (timeOf_eq_ok_iff few).2 ⟨_, shown, rfl⟩
    simp only [parseClock_of_few clock few, read, bind, Except.bind, within, Bool.false_eq_true, if_false]

theorem reads_parseClock (s : String) : Reads s (parseClock s) := by
  by_cases blank : Text.trim s.toList = []
  · have read := Reads.empty (s := s) (Text.isTrimmed_iff.2 blank.symm)
    rw [read.parseClock_eq]
    exact read
  have clock := isClock_iff.2 ⟨rfl, blank, rfl⟩
  by_cases many : 3 < (Text.splitOn ':' (Text.trim s.toList)).length
  · have read := Reads.crowded clock many
    rw [read.parseClock_eq]
    exact read
  have few := Nat.not_lt.1 many
  generalize Text.splitOn ':' (Text.trim s.toList) = parts at clock few
  rw [parseClock_of_few clock few]
  cases read : timeOf parts with
  | error err =>
    obtain ⟨before, part, after, name, rfl, unit, shown, fault⟩ := (timeOf_eq_error_iff few).1 read
    exact .faulty clock few shown unit fault
  | ok time =>
    obtain ⟨values, shown, rfl⟩ := (timeOf_eq_ok_iff few).1 read
    simp only [bind, Except.bind]
    split
    · rename_i long
      exact .lengthy clock few shown long
    · rename_i within
      exact .time clock few shown (by simpa using within)

theorem parseClock_eq_iff {s : String} {result : Except TimestampError Binary64} :
    parseClock s = result ↔ Reads s result := by
  constructor
  · rintro rfl
    exact reads_parseClock s
  · exact Reads.parseClock_eq

theorem parseClock_eq_ok_iff {s : String} {t : List Char} {parts : List (List Char)}
    (clock : IsClock s t parts) {time : Binary64} : parseClock s = .ok time ↔ parts.length ≤ 3 ∧
      (∃ values, List.Forall₂ Shows parts values ∧ total values = time) ∧
        maximum.lt time = false := by
  obtain ⟨text, -, parted⟩ := isClock_iff.1 clock
  constructor
  · intro read
    cases parseClock_eq_iff.1 read with
    | time same few shown within =>
      obtain ⟨same_text, -, same_parts⟩ := isClock_iff.1 same
      obtain rfl := same_text.trans text.symm
      obtain rfl := same_parts.trans parted.symm
      exact ⟨few, ⟨_, shown, rfl⟩, within⟩
  · rintro ⟨few, ⟨values, shown, rfl⟩, within⟩
    exact (Reads.time clock few shown within).parseClock_eq

/-! Times -/

/-- What counts of the factor between two units. -/
theorem sixty : Binary64.lt 0 60 = true ∧ (60 : Binary64).isFinite = true ∧
    (0 : Binary64) * 60 = 0 := by decide +kernel

theorem isFinite_maximum : maximum.isFinite = true := by decide +kernel

/-- The first component starts the count, without a sign where it is zero. -/
theorem total_cons {x : Binary64} (finite : x.isFinite = true) (values : List Binary64) :
    total (x :: values) = values.foldl (fun time x => time * 60 + x) x.plain := by
  unfold total
  rw [List.foldl_cons, sixty.2.2, Binary64.zero_add_of_finite finite]

/-- A further component keeps a time from being below zero, and from being no number. -/
theorem zero_le_step {time x : Binary64} (before : Binary64.le 0 time = true)
    (above : Binary64.le 0 x = true) : Binary64.le 0 (time * 60 + x) = true := by
  exact Binary64.zero_le_add (Binary64.zero_le_mul before sixty.1 sixty.2.1) above

theorem zero_le_foldl {values : List Binary64} (above : ∀ x ∈ values, Binary64.le 0 x = true)
    {time : Binary64} (before : Binary64.le 0 time = true) :
    Binary64.le 0 (values.foldl (fun time x => time * 60 + x) time) = true := by
  induction values generalizing time with
  | nil => exact before
  | cons x values ih =>
    obtain ⟨first, others⟩ := List.forall_mem_cons.1 above
    exact ih others (zero_le_step before first)

theorem zero_le_total {parts : List (List Char)} {values : List Binary64}
    (shown : List.Forall₂ Shows parts values) : Binary64.le 0 (total values) = true := by
  apply zero_le_foldl
  · intro x among
    obtain ⟨part, -, shows⟩ := exists_of_forall₂_of_mem shown.flip among
    exact shows.above
  · exact Binary64.zero_le_self

/-- A text is read as a clock just as the language of clocks says: every text has exactly one reading,
and a time that is read is a number between zero and the longest time. -/
theorem clocks_are_read_by_their_language (s : String) :
    (∀ result, parseClock s = result ↔ Reads s result) ∧
    ∀ time, parseClock s = .ok time →
      time.isNaN = false ∧ Binary64.le 0 time = true ∧ time.le maximum = true := by
  refine ⟨fun result => parseClock_eq_iff, ?_⟩
  intro time read
  cases parseClock_eq_iff.1 read with
  | time clock few shown within =>
    have above := zero_le_total shown
    obtain ⟨i, place, -⟩ := Binary64.zero_le_iff.1 above
    obtain ⟨j, most⟩ := Binary64.exists_rank? isFinite_maximum
    refine ⟨Binary64.isNaN_of_zero_le above, above, ?_⟩
    rw [Binary64.le_iff place most]
    rw [← Bool.not_eq_true, Binary64.lt_iff most place] at within
    omega

theorem three_components_are_read :
    parseClock " 01:02:03 " = .ok 3723 ∧ Reads " 01:02:03 " (.ok 3723) ∧
      Binary64.le 3723 maximum = true ∧ Reads "-1:x:2" (.error .negative) := by
  have read : parseClock " 01:02:03 " = .ok 3723 := by decide +kernel
  have first : parseClock "-1:x:2" = .error .negative := by decide +kernel
  obtain ⟨language, bounds⟩ := clocks_are_read_by_their_language " 01:02:03 "
  exact ⟨read, (language _).1 read, (bounds _ read).2.2,
    ((clocks_are_read_by_their_language "-1:x:2").1 _).1 first⟩

end Timestamp
end Montage
