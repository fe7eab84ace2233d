import Mathlib.Tactic.Linarith
import Mathlib.Tactic.Zify
import Montage.Proofs.Binary64.Amount
import Montage.Proofs.PlainDecimal

/-! Elapsed times read back. The text of an elapsed time shows up to three parts, and whoever reads them
one after another and adds them up has the whole seconds again, however many shapes the text may have. -/
namespace Montage

structure Elapsed where
  hours : Option Nat := none
  minutes : Option Nat := none
  seconds : Option Nat := none
deriving DecidableEq

namespace Elapsed

def total (e : Elapsed) : Nat :=
  3600 * e.hours.getD 0 + 60 * e.minutes.getD 0 + e.seconds.getD 0

def parts (e : Elapsed) : List String :=
  (e.hours.map fun h => Numeral.text h ++ "hr").toList ++
    (e.minutes.map fun m => Numeral.text m ++ " min").toList ++
    (e.seconds.map fun s => Numeral.text s ++ " sec").toList

def text (e : Elapsed) : String := " ".intercalate e.parts

def readHours : List (List Char) → Option Nat × List (List Char)
  | [] => (none, [])
  | word :: rest =>
    let (ds, unit) := word.span Char.isDigit
    if ds ≠ [] ∧ unit = ['h', 'r'] then (some (Numeral.value ds), rest) else (none, word :: rest)

/-- A number in front of some words whose unit is the word behind it. -/
def readCount (unit : List Char) : List (List Char) → Option Nat × List (List Char)
  | ds :: word :: rest =>
    if ds ≠ [] ∧ ds.all Char.isDigit ∧ word = unit then (some (Numeral.value ds), rest)
    else (none, ds :: word :: rest)
  | words => (none, words)

def read? (text : String) : Option Elapsed :=
  let (hours, behindHours) := readHours (Text.splitOn ' ' text.toList)
  let (minutes, behindMinutes) := readCount ['m', 'i', 'n'] behindHours
  let (seconds, rest) := readCount ['s', 'e', 'c'] behindMinutes
  if rest = [] then some ⟨hours, minutes, seconds⟩ else none

/-- What the parts of a number of seconds are: they add up to it, none of them reaches the next larger
unit, and none is zero but the seconds of no time at all. -/
structure Shows (e : Elapsed) (n : Nat) : Prop where
  total : e.total = n
  hours : ∀ h ∈ e.hours, 0 < h
  minutes : ∀ m ∈ e.minutes, 0 < m ∧ m < 60
  seconds : ∀ s ∈ e.seconds, s < 60 ∧ (s = 0 → n = 0)

/-! Reading -/

def hourWords : Option Nat → List (List Char)
  | some h => [Numeral.digits h ++ ['h', 'r']]
  | none => []

def countWords (unit : List Char) : Option Nat → List (List Char)
  | some n => [Numeral.digits n, unit]
  | none => []

def words (e : Elapsed) : List (List Char) :=
  hourWords e.hours ++ (countWords ['m', 'i', 'n'] e.minutes ++ countWords ['s', 'e', 'c'] e.seconds)

def Timeless (words : List (List Char)) : Prop := ∀ word ∈ words.head?, IsDigits word

theorem timeless_countWords (unit : List Char) (n : Option Nat) {rest : List (List Char)}
    (behind : Timeless rest) : Timeless (countWords unit n ++ rest) := by
  cases n with
  | none => exact behind
  | some n =>
    rintro word ⟨⟩
    exact Numeral.isDigits_digits n

theorem readHours_hourWords (h : Option Nat) {rest : List (List Char)} (behind : Timeless rest) :
    readHours (hourWords h ++ rest) = (h, rest) := by
  cases h with
  | some h =>
    have digits := Numeral.isDigits_digits h
    have stop : ∀ c ∈ ['h', 'r'].head?, c.isDigit = false := by
      rintro c ⟨⟩
      rfl
    have parted := digits.span_append stop
    simp only [hourWords, List.singleton_append, readHours, parted, ne_eq, digits.1, not_false_eq_true,
      and_self, if_true, Numeral.value_digits]
  | none =>
    cases rest with
    | nil => rfl
    | cons word rest =>
      have parted := (behind word rfl).span
      simp only [hourWords, List.nil_append, readHours, parted]
      rw [if_neg (by simp)]

theorem readCount_countWords (unit : List Char) (n : Option Nat) {rest : List (List Char)}
    (behind : ∀ word ∈ rest[1]?, word ≠ unit) :
    readCount unit (countWords unit n ++ rest) = (n, rest) := by
  cases n with
  | some n =>
    have digits := Numeral.isDigits_digits n
    have all : (Numeral.digits n).all Char.isDigit = true := List.all_eq_true.2 digits.2
    simp only [countWords, List.cons_append, List.nil_append, readCount, digits.1, all, ne_eq,
      not_false_eq_true, and_self, if_true, Numeral.value_digits]
  | none =>
    match rest, behind with
    | [], _ => rfl
    | [word], _ => rfl
    | ds :: word :: rest, behind => simp [countWords, readCount, behind word rfl]

theorem readWords (e : Elapsed) :
    readHours e.words = (e.hours, countWords ['m', 'i', 'n'] e.minutes ++
      countWords ['s', 'e', 'c'] e.seconds) ∧
    readCount ['m', 'i', 'n'] (countWords ['m', 'i', 'n'] e.minutes ++
      countWords ['s', 'e', 'c'] e.seconds) = (e.minutes, countWords ['s', 'e', 'c'] e.seconds) ∧
    readCount ['s', 'e', 'c'] (countWords ['s', 'e', 'c'] e.seconds) = (e.seconds, []) := by
  have timeless : Timeless [] := by simp [Timeless]
  have seconds : Timeless (countWords ['s', 'e', 'c'] e.seconds) := by
    simpa using timeless_countWords ['s', 'e', 'c'] e.seconds timeless
  refine ⟨?_, ?_, ?_⟩
  · exact readHours_hourWords e.hours (timeless_countWords _ e.minutes seconds)
  · apply readCount_countWords
    cases e.seconds <;> simp [countWords]
  · have last : ∀ word ∈ ([] : List (List Char))[1]?, word ≠ ['s', 'e', 'c'] := by simp
    simpa using readCount_countWords ['s', 'e', 'c'] e.seconds last

/-! Writing -/

theorem splitOn_digits (n : Nat) (unit : List Char) (single : ' ' ∉ unit) :
    Text.splitOn ' ' (Numeral.digits n ++ unit) = [Numeral.digits n ++ unit] := by
  apply Text.splitOn_of_not_mem
  intro among
  rcases List.mem_append.1 among with digit | inside
  · exact absurd ((Numeral.isDigits_digits n).2 ' ' digit) (by decide)
  · exact single inside

theorem splitOn_count (n : Nat) (unit : List Char) (single : ' ' ∉ unit) :
    Text.splitOn ' ' (Numeral.digits n ++ ' ' :: unit) = countWords unit (some n) := by
  have apart : ' ' ∉ Numeral.digits n := fun among =>
    absurd ((Numeral.isDigits_digits n).2 ' ' among) (by decide)
  rw [Text.splitOn_append_separator apart, Text.splitOn_of_not_mem single]
  rfl

theorem splitOn_text (e : Elapsed) (nonempty : e.parts ≠ []) :
    Text.splitOn ' ' e.text.toList = e.words := by
  have spaces : " ".toList = [' '] := rfl
  rw [text, String.toList_intercalate, spaces, Text.splitOn_intercalate (by simpa using nonempty)]
  obtain ⟨hours, minutes, seconds⟩ := e
  unfold parts words
  rw [List.map_append, List.map_append, List.flatMap_append, List.flatMap_append, List.append_assoc]
  congr 1
  · cases hours with
    | none => rfl
    | some h => simpa [Numeral.text, hourWords] using splitOn_digits h ['h', 'r'] (by decide)
  congr 1
  · cases minutes with
    | none => rfl
    | some m => simpa [Numeral.text] using splitOn_count m ['m', 'i', 'n'] (by decide)
  · cases seconds with
    | none => rfl
    | some s => simpa [Numeral.text] using splitOn_count s ['s', 'e', 'c'] (by decide)

/-- Whichever parts a text shows, they are read again. -/
theorem read?_text (e : Elapsed) (nonempty : e.parts ≠ []) : read? e.text = some e := by
  obtain ⟨hours, minutes, seconds⟩ := readWords e
  unfold read?
  simp only [splitOn_text e nonempty, hours, minutes, seconds, if_true]

/-! The parts of a number of seconds -/

def ofSeconds (n : Nat) : Elapsed where
  hours := if 0 < n / 3600 then some (n / 3600) else none
  minutes := if 0 < n % 3600 / 60 then some (n % 3600 / 60) else none
  seconds := if 0 < n % 60 ∨ n = 0 then some (n % 60) else none

theorem parts_ofSeconds (n : Nat) : (ofSeconds n).parts = Timestamp.elapsedParts n := by
  have nothing : n = 0 ↔ ¬ 0 < n / 3600 ∧ ¬ 0 < n % 3600 / 60 ∧ ¬ 0 < n % 60 := by omega
  unfold parts ofSeconds Timestamp.elapsedParts
  by_cases hours : 0 < n / 3600 <;> by_cases minutes : 0 < n % 3600 / 60 <;>
    by_cases seconds : 0 < n % 60 <;> simp [hours, minutes, seconds, nothing]

theorem shows_ofSeconds (n : Nat) : (ofSeconds n).Shows n := by
  refine ⟨?_, ?_, ?_, ?_⟩
  · simp only [total, ofSeconds]
    split <;> split <;> split <;> simp only [Option.getD_some, Option.getD_none] <;> omega
  · intro h shown
    obtain ⟨positive, same⟩ := Option.ite_none_right_eq_some.1 shown
    cases same
    exact positive
  · intro m shown
    obtain ⟨positive, same⟩ := Option.ite_none_right_eq_some.1 shown
    cases same
    exact ⟨positive, by omega⟩
  · intro s shown
    obtain ⟨positive, same⟩ := Option.ite_none_right_eq_some.1 shown
    cases same
    omega

theorem parts_ofSeconds_ne_nil (n : Nat) : (ofSeconds n).parts ≠ [] := by
  intro empty
  simp only [parts, ofSeconds, List.append_eq_nil_iff, Option.toList_eq_nil_iff, Option.map_eq_none_iff,
    ite_eq_right_iff, reduceCtorEq, imp_false] at empty
  omega

end Elapsed

namespace Timestamp

/-- How long a duration is, in the units of doubles. One that is below zero or no number has no
length. -/
def length (x : Binary64) : Int := max 0 (x.rank?.getD 0)

/-- The whole seconds that a duration counts as, held below `2 ^ 64`: the nearest, where a half goes up. -/
structure RoundsTo (x : Binary64) (n : Nat) : Prop where
  fits : n < 2 ^ 64
  above : (2 * n - 1) * Binary64.one ≤ 2 * length x
  below : n + 1 < 2 ^ 64 → 2 * length x < (2 * n + 1) * Binary64.one

theorem RoundsTo.unique {x : Binary64} {m n : Nat} (hm : RoundsTo x m) (hn : RoundsTo x n) :
    m = n := by
  have apart : ∀ {m n : Nat}, RoundsTo x m → RoundsTo x n → ¬ m < n := by
    intro m n hm hn less
    have fits := hn.fits
    have ends := hm.below (by omega)
    have begins := hn.above
    have order : ((2 * m + 1 : Int)) * Binary64.one ≤ (2 * n - 1) * Binary64.one :=
      Int.mul_le_mul_of_nonneg_right (by omega) (Int.natCast_nonneg _)
    omega
  have first := apart hm hn
  have second := apart hn hm
  omega

theorem length_of_rank? {x : Binary64} {i : Int} (place : x.rank? = some i) : length x = max 0 i := by
  rw [length, place, Option.getD_some]

theorem roundsTo_zero {x : Binary64} (nothing : ∀ i ∈ x.rank?, i ≤ 0) : RoundsTo x 0 := by
  have short : length x = 0 := by
    cases place : x.rank? with
    | none => rw [length, place, Option.getD_none, max_self]
    | some i => rw [length_of_rank? place, max_eq_left (nothing i place)]
  have positive := Binary64.one_pos
  refine ⟨Nat.two_pow_pos 64, ?_, fun _ => ?_⟩ <;> rw [short] <;> omega

theorem roundsTo_infinity : RoundsTo (.infinity false) (Nat.pow 2 64 - 1) := by
  have long : length (.infinity false) = Binary64.limit := by decide +kernel
  have room : Nat.pow 2 65 * Binary64.one ≤ Binary64.limit := by decide +kernel
  simp only [Nat.pow_eq, Nat.reducePow, Nat.reduceSub] at room ⊢
  refine ⟨by norm_num, ?_, fun more => absurd more (by norm_num)⟩
  rw [long]
  push_cast
  omega

theorem roundsTo_units {units : Nat} (exact : Binary64.Representable units) :
    RoundsTo (.finite false units exact)
      (Nat.min ((2 * units + Binary64.one) / (2 * Binary64.one)) (Nat.pow 2 64 - 1)) := by
  have long : length (.finite false units exact) = units :=
    (length_of_rank? rfl).trans (max_eq_right (Int.natCast_nonneg units))
  have low := Nat.div_mul_le_self (2 * units + Binary64.one) (2 * Binary64.one)
  have high := Nat.lt_div_mul_add (a := 2 * units + Binary64.one) (b := 2 * Binary64.one)
    (Nat.mul_pos Nat.two_pos Binary64.one_pos)
  generalize (2 * units + Binary64.one) / (2 * Binary64.one) = q at low high ⊢
  simp only [Nat.pow_eq, Nat.reducePow, Nat.reduceSub]
  change RoundsTo _ (min q 18446744073709551615)
  generalize held : min q 18446744073709551615 = n
  refine ⟨by omega, ?_, ?_⟩
  · have least : n * Binary64.one ≤ q * Binary64.one := Nat.mul_le_mul_right _ (by omega)
    rw [long]
    zify at low least
    linarith
  · intro room
    obtain rfl : n = q := by omega
    rw [long]
    zify at high
    linarith

theorem roundsTo_roundToWhole (x : Binary64) : RoundsTo x x.roundToWhole := by
  have below (place : Nat) : ∀ i ∈ some (-(place : Int)), i ≤ 0 := by
    rintro i ⟨⟩
    exact Int.neg_nonpos_of_nonneg (Int.natCast_nonneg place)
  cases x with
  | nan => exact roundsTo_zero fun i place => nomatch place
  | infinity negative =>
    cases negative with
    | true =>
      rw [Binary64.roundToWhole, if_pos rfl]
      exact roundsTo_zero (below Binary64.limit)
    | false =>
      rw [Binary64.roundToWhole, if_neg Bool.false_ne_true]
      exact roundsTo_infinity
  | finite negative units exact =>
    cases negative with
    | true =>
      rw [Binary64.roundToWhole, if_pos rfl]
      exact roundsTo_zero (below units)
    | false =>
      rw [Binary64.roundToWhole, if_neg Bool.false_ne_true]
      exact roundsTo_units exact

theorem formatElapsed_eq (x : Binary64) :
    formatElapsed x = (Elapsed.ofSeconds x.roundToWhole).text := by
  rw [formatElapsed, Elapsed.text, Elapsed.parts_ofSeconds]

/-- The text of an elapsed time is read back part by part, and the parts add up to the whole seconds
that it was written for. So two durations have one text just if they count as the same seconds. -/
theorem elapsed_times_read_back :
    (∀ n, ∃ e : Elapsed, " ".intercalate (elapsedParts n) = e.text ∧ Elapsed.read? e.text = some e ∧
      e.Shows n) ∧
    (∀ x, ∃ n, ∃ e : Elapsed, RoundsTo x n ∧ Elapsed.read? (formatElapsed x) = some e ∧ e.Shows n) ∧
    ∀ x y, formatElapsed x = formatElapsed y ↔ ∃ n, RoundsTo x n ∧ RoundsTo y n := by
  have reads (n : Nat) : Elapsed.read? (Elapsed.ofSeconds n).text = some (Elapsed.ofSeconds n) :=
    Elapsed.read?_text _ (Elapsed.parts_ofSeconds_ne_nil n)
  refine ⟨?_, ?_, ?_⟩
  · intro n
    exact ⟨.ofSeconds n, by rw [Elapsed.text, Elapsed.parts_ofSeconds], reads n, Elapsed.shows_ofSeconds n⟩
  · intro x
    refine ⟨x.roundToWhole, .ofSeconds x.roundToWhole, roundsTo_roundToWhole x, ?_, Elapsed.shows_ofSeconds _⟩
    rw [formatElapsed_eq, reads]
  · intro x y
    have rounds_x := roundsTo_roundToWhole x
    have rounds_y := roundsTo_roundToWhole y
    rw [formatElapsed_eq, formatElapsed_eq]
    constructor
    · intro same
      have read := congrArg Elapsed.read? same
      rw [reads, reads, Option.some.injEq] at read
      have total := (Elapsed.shows_ofSeconds x.roundToWhole).total
      rw [read, (Elapsed.shows_ofSeconds y.roundToWhole).total] at total
      exact ⟨x.roundToWhole, rounds_x, total ▸ rounds_y⟩
    · rintro ⟨n, shared_x, shared_y⟩
      rw [rounds_x.unique shared_x, rounds_y.unique shared_y]

example : formatElapsed 3725 = "1hr 2 min 5 sec" ∧ formatElapsed 0 = "0 sec" := by decide +kernel

end Timestamp
end Montage
