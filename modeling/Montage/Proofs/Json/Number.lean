import Montage.Json.Numeral
import Montage.Json.Reader
import Montage.Proofs.Binary64.ReadBack
import Montage.Proofs.NumberText
import Montage.Proofs.PlainDecimal

/-! Numbers read back from their JSON text. The text of a number is spelled as digits, perhaps a
fraction and perhaps a power of ten; the reader takes the parts one by one and stops before the first
character that no number goes on with. -/
namespace Montage

namespace Numeral

theorem head?_digits_ne {n : Nat} (positive : n ≠ 0) : (digits n).head? ≠ some '0' := by
  fun_induction digits n with
  | case1 n small =>
    have all : ∀ d ∈ List.range 10, d ≠ 0 → [digitChar d].head? ≠ some '0' := by decide
    exact all n (List.mem_range.2 small) positive
  | case2 n large ih =>
    obtain ⟨c, cs, cons⟩ := List.exists_cons_of_ne_nil (isDigits_digits (n / 10)).1
    rw [cons] at ih ⊢
    exact ih (by omega)

end Numeral

namespace Json

/-! The parts of a number -/

structure Spelling where
  whole : List Char
  fraction : Option (List Char) := none
  power : Option Int := none

namespace Spelling

def fractionChars : Option (List Char) → List Char
  | some ds => '.' :: ds
  | none => []

def powerChars : Option Int → List Char
  | some p => powerText p
  | none => []

def chars (s : Spelling) : List Char := s.whole ++ fractionChars s.fraction ++ powerChars s.power

/-- The decimal that is spelled, each digit of the fraction counting a tenth of the one before. -/
def decimal (s : Spelling) : Decimal :=
  ⟨Numeral.value (s.whole ++ s.fraction.getD []), s.power.getD 0 - (s.fraction.getD []).length⟩

structure IsProper (s : Spelling) : Prop where
  whole : IsDigits s.whole
  lead : s.whole = ['0'] ∨ s.whole.head? ≠ some '0'
  fraction : ∀ ds ∈ s.fraction, IsDigits ds

/-- A spelling that reads back as the double nearest to `d`, since it is no whole number. -/
structure Spells (s : Spelling) (d : Decimal) : Prop extends s.IsProper where
  marked : s.fraction ≠ none ∨ s.power ≠ none
  reads : ∀ negative, s.decimal.toBinary64 negative = d.toBinary64 negative

end Spelling

def StopsDigits (cs : List Char) : Prop := ∀ c ∈ cs.head?, c.isDigit = false

def StopsNumber (cs : List Char) : Prop := ∀ c ∈ cs.head?, ¬ IsNumberChar c

theorem StopsNumber.stopsDigits {cs : List Char} (h : StopsNumber cs) : StopsDigits cs :=
  fun c hc => Bool.eq_false_iff.2 fun digit => h c hc (.inl digit)

theorem stopsDigits_cons {c : Char} (h : c.isDigit = false) (cs : List Char) :
    StopsDigits (c :: cs) := by
  intro d hd
  cases hd
  exact h

theorem stopsDigits_powerChars {rest : List Char} (power : Option Int) (stop : StopsNumber rest) :
    StopsDigits (Spelling.powerChars power ++ rest) := by
  cases power with
  | none => exact stop.stopsDigits
  | some p => exact stopsDigits_cons rfl _

theorem stopsDigits_fractionChars {rest : List Char} (fraction : Option (List Char))
    (stop : StopsDigits rest) : StopsDigits (Spelling.fractionChars fraction ++ rest) := by
  cases fraction with
  | none => exact stop
  | some ds => exact stopsDigits_cons rfl _

theorem readDigits_append {ds rest : List Char} (digits : IsDigits ds) (stop : StopsDigits rest) :
    readDigits (ds ++ rest) = .ok (ds, rest) := by
  have span := digits.span_append stop
  obtain ⟨c, ds, rfl⟩ := List.exists_cons_of_ne_nil digits.1
  rw [readDigits, span]

theorem readWhole_append {ds rest : List Char} (digits : IsDigits ds)
    (lead : ds = ['0'] ∨ ds.head? ≠ some '0') (stop : StopsDigits rest) :
    readWhole (ds ++ rest) = .ok (ds, rest) := by
  rw [readWhole.eq_def]
  split
  · rename_i c after zero
    rcases lead with rfl | other
    · obtain rfl := List.cons.inj zero |>.2
      simp [stop c rfl]
    · obtain ⟨d, ds, rfl⟩ := List.exists_cons_of_ne_nil digits.1
      obtain rfl := (List.cons.inj zero).1
      exact absurd rfl other
  · exact readDigits_append digits stop

theorem readFraction_append {fraction : Option (List Char)} {rest : List Char}
    (digits : ∀ ds ∈ fraction, IsDigits ds) (stop : StopsDigits rest)
    (point : rest.head? ≠ some '.') :
    readFraction (Spelling.fractionChars fraction ++ rest) = .ok (fraction, rest) := by
  cases fraction with
  | none =>
    rw [Spelling.fractionChars, List.nil_append, readFraction.eq_def]
    split
    · exact absurd rfl point
    · rfl
  | some ds =>
    rw [Spelling.fractionChars, List.cons_append, readFraction, readDigits_append (digits ds rfl) stop]
    rfl

theorem readPower_of_stopsNumber {rest : List Char} (stop : StopsNumber rest) :
    readPower rest = .ok (none, rest) := by
  rw [readPower.eq_def]
  split
  · rename_i c rest
    have mark : ¬ (c = 'e' ∨ c = 'E') := by
      rintro (rfl | rfl) <;> exact stop _ rfl (.inr (by decide))
    rw [if_neg mark]
  · rfl

theorem readPower_powerText (p : Int) {rest : List Char} (stop : StopsNumber rest) :
    readPower (powerText p ++ rest) = .ok (some p, rest) := by
  have digits := readDigits_append (Numeral.isDigits_digits p.natAbs) stop.stopsDigits
  by_cases negative : p < 0
  · have value : -(p.natAbs : Int) = p := by omega
    rw [powerText, if_pos negative]
    simp only [List.cons_append, readPower, true_or, if_true, digits, Numeral.value_digits, Except.map,
      value]
  · have value : (p.natAbs : Int) = p := by omega
    rw [powerText, if_neg negative]
    simp only [List.cons_append, readPower, true_or, if_true, digits, Numeral.value_digits, Except.map,
      Bool.false_eq_true, if_false, value]

theorem readPower_append (power : Option Int) {rest : List Char} (stop : StopsNumber rest) :
    readPower (Spelling.powerChars power ++ rest) = .ok (power, rest) := by
  cases power with
  | none => exact readPower_of_stopsNumber stop
  | some p => exact readPower_powerText p stop

theorem head?_powerChars_ne (power : Option Int) {rest : List Char} (stop : StopsNumber rest) :
    (Spelling.powerChars power ++ rest).head? ≠ some '.' := by
  cases power with
  | none => exact fun point => stop '.' point (.inr (by decide))
  | some p => exact fun point => absurd (Option.some.inj point) (by decide)

theorem readNumber_append (r : Rounding) (negative : Bool) {s : Spelling} (proper : s.IsProper)
    {rest : List Char} (stop : StopsNumber rest) :
    readNumber r ((if negative then ['-'] else []) ++ s.chars ++ rest) =
      (numberValue r negative s.whole s.fraction s.power, some rest) := by
  have power := readPower_append s.power stop
  have stopWhole := stopsDigits_powerChars s.power stop
  have fraction := readFraction_append proper.fraction stopWhole (head?_powerChars_ne s.power stop)
  have whole := readWhole_append proper.whole proper.lead
    (stopsDigits_fractionChars s.fraction stopWhole)
  have parts : s.chars ++ rest =
      s.whole ++ (Spelling.fractionChars s.fraction ++ (Spelling.powerChars s.power ++ rest)) := by
    simp [Spelling.chars]
  cases negative with
  | true =>
    rw [if_pos rfl, List.append_assoc, parts, List.singleton_append]
    simp [readNumber, whole, fraction, power, bind, Except.bind, pure, Except.pure]
  | false =>
    rw [if_neg Bool.false_ne_true, List.nil_append, parts]
    unfold readNumber
    split
    rename_i sign after unsigned
    split at unsigned
    · rename_i minus
      obtain ⟨c, ds, cons⟩ := List.exists_cons_of_ne_nil proper.whole.1
      have digit := proper.whole.2 c (by simp [cons])
      rw [cons] at minus
      obtain rfl := (List.cons.inj minus).1
      exact absurd digit (by decide)
    · cases unsigned
      simp [whole, fraction, power, bind, Except.bind, pure, Except.pure]

theorem numberValue_digits (r : Rounding) (negative : Bool) {n : Nat}
    (fits : if negative then 0 < n ∧ n ≤ Nat.pow 2 63 else n < Nat.pow 2 64) :
    numberValue r negative (Numeral.digits n) none none =
      .number (.integer (if negative then -n else n)) := by
  rw [numberValue, Numeral.value_digits, if_pos ⟨rfl, rfl, fits⟩]

theorem numberValue_of_marked {negative : Bool} {s : Spelling}
    (marked : s.fraction ≠ none ∨ s.power ≠ none)
    (finite : (s.decimal.toBinary64 negative).isFinite = true) :
    numberValue .nearest negative s.whole s.fraction s.power =
      .number (.float (s.decimal.toBinary64 negative)) := by
  rw [numberValue, if_neg, if_pos]
  · rfl
  · exact finite
  · rintro ⟨point, power, -⟩
    exact marked.elim (· point) (· power)

/-! The text of a number -/

def Number.IsWritable : Number → Prop
  | .integer i => -Int.pow 2 63 ≤ i ∧ i < Int.pow 2 64
  | .float x => x.isFinite = true

structure Number.SpelledAs (n : Number) (negative : Bool) (s : Spelling) : Prop where
  proper : s.IsProper
  text : (numberText n).toList = (if negative then ['-'] else []) ++ s.chars
  value : numberValue .nearest negative s.whole s.fraction s.power = .number n

theorem Number.spelledAs_integer {i : Int} (writable : (Number.integer i).IsWritable) :
    (Number.integer i).SpelledAs (i < 0) { whole := Numeral.digits i.natAbs } := by
  refine ⟨⟨Numeral.isDigits_digits _, ?_, fun ds hds => nomatch hds⟩, ?_, ?_⟩
  · by_cases zero : i.natAbs = 0
    · exact .inl (by rw [zero, Numeral.digits]; rfl)
    · exact .inr (Numeral.head?_digits_ne zero)
  · by_cases negative : i < 0 <;>
      simp [numberText, Numeral.signedText, Numeral.text, negative, Spelling.chars,
        Spelling.fractionChars, Spelling.powerChars]
  · simp only [Number.IsWritable, Int.pow_eq, Int.reducePow] at writable
    by_cases negative : i < 0
    · have fits : 0 < i.natAbs ∧ i.natAbs ≤ Nat.pow 2 63 := by
        simp only [Nat.pow_eq, Nat.reducePow]; omega
      have signed : -(i.natAbs : Int) = i := by omega
      rw [decide_eq_true negative, numberValue_digits _ true fits, if_pos rfl, signed]
    · have fits : i.natAbs < Nat.pow 2 64 := by simp only [Nat.pow_eq, Nat.reducePow]; omega
      have signed : (i.natAbs : Int) = i := by omega
      rw [decide_eq_false negative, numberValue_digits _ false fits, if_neg Bool.false_ne_true, signed]

structure IsNumeral (ds : List Char) (n : Nat) : Prop where
  digits : IsDigits ds
  lead : ds.head? ≠ some '0'
  value : Numeral.value ds = n
  positive : n ≠ 0

namespace IsNumeral

variable {ds : List Char} {n : Nat} {e : Int}

theorem spells_behind (h : IsNumeral ds n) (whole : 0 ≤ e) :
    Spelling.Spells { whole := ds ++ List.replicate e.toNat '0', fraction := some ['0'] } ⟨n, e⟩ := by
  have first : (ds ++ List.replicate e.toNat '0').head? ≠ some '0' := by
    obtain ⟨c, rest, rfl⟩ := List.exists_cons_of_ne_nil h.digits.1
    exact h.lead
  refine ⟨⟨h.digits.append_zeros _, .inr first, by simp [IsDigits]⟩, .inl (by simp), ?_⟩
  intro negative
  have shifted : Numeral.value (ds ++ List.replicate e.toNat '0' ++ ['0']) =
      n * 10 ^ (e.toNat + 1) := by
    rw [List.append_assoc, ← List.replicate_succ', Numeral.value_append_zeros, h.value]
  have places : (0 : Int) - 1 = e - (e.toNat + 1 : Nat) := by omega
  rw [← Decimal.toBinary64_shift negative h.positive e (e.toNat + 1), ← shifted, ← places]
  rfl

theorem spells_among (h : IsNumeral ds n) {p : Nat} (positive : 0 < p) (others : p < ds.length)
    (place : (p : Int) = ds.length + e) :
    Spelling.Spells { whole := ds.take p, fraction := some (ds.drop p) } ⟨n, e⟩ := by
  have first : (ds.take p).head? ≠ some '0' := by
    rw [List.head?_take, if_neg (by omega)]
    exact h.lead
  refine ⟨⟨h.digits.take positive, .inr first, ?_⟩, .inl (by simp), ?_⟩
  · rintro behind ⟨⟩
    exact h.digits.drop others
  · intro negative
    have places : (0 : Int) - (ds.drop p).length = e := by rw [List.length_drop]; omega
    simp only [Spelling.decimal, Option.getD_some, Option.getD_none, List.take_append_drop, h.value,
      places]

theorem spells_before (h : IsNumeral ds n) {k : Nat} (place : (k : Int) = -(ds.length + e)) :
    Spelling.Spells { whole := ['0'], fraction := some (List.replicate k '0' ++ ds) } ⟨n, e⟩ := by
  refine ⟨⟨by simp [IsDigits], .inl rfl, ?_⟩, .inl (by simp), ?_⟩
  · rintro behind ⟨⟩
    exact h.digits.zeros_append _
  · intro negative
    have leading : Numeral.value (['0'] ++ (List.replicate k '0' ++ ds)) = n := by
      rw [← List.append_assoc, List.singleton_append, ← List.replicate_succ,
        Numeral.value_zeros_append, h.value]
    have places : (0 : Int) - (List.replicate k '0' ++ ds).length = e := by
      rw [List.length_append, List.length_replicate]; omega
    simp only [Spelling.decimal, Option.getD_some, Option.getD_none, leading, places]

theorem spells_digit_power {c : Char} (h : IsNumeral [c] n) :
    Spelling.Spells { whole := [c], power := some e } ⟨n, e⟩ := by
  refine ⟨⟨h.digits, .inr h.lead, fun ds hds => nomatch hds⟩, .inr (by simp), ?_⟩
  intro negative
  simp [Spelling.decimal, h.value]

theorem spells_power {c next : Char} (h : IsNumeral (c :: next :: ds) n) {p : Int}
    (place : p = ((c :: next :: ds).length : Int) + e - 1) :
    Spelling.Spells { whole := [c], fraction := some (next :: ds), power := some p } ⟨n, e⟩ := by
  refine ⟨⟨h.digits.take (n := 1) (by decide), .inr h.lead, ?_⟩, .inl (by simp), ?_⟩
  · rintro behind ⟨⟩
    exact h.digits.drop (n := 1) (by simp)
  · intro negative
    have places : p - (next :: ds).length = e := by
      simp only [List.length_cons] at place ⊢; omega
    simp only [Spelling.decimal, Option.getD_some, List.singleton_append, h.value, places]

end IsNumeral

/-- Wherever the point falls, the digits are spelled so that they are read back. -/
theorem exists_spelling {d : Decimal} (positive : d.digits ≠ 0) :
    ∃ s : Spelling, magnitudeText d = s.chars ∧ s.Spells d := by
  obtain ⟨n, e⟩ := d
  have numeral : IsNumeral (Numeral.digits n) n :=
    ⟨Numeral.isDigits_digits n, Numeral.head?_digits_ne positive, Numeral.value_digits n, positive⟩
  simp only [magnitudeText]
  generalize Numeral.digits n = ds at numeral ⊢
  split
  · rename_i behind
    refine ⟨_, ?_, numeral.spells_behind behind.1⟩
    simp [Spelling.chars, Spelling.fractionChars, Spelling.powerChars]
  split
  · refine ⟨_, ?_, numeral.spells_among (p := (ds.length + e).toNat) (by omega) (by omega) (by omega)⟩
    simp [Spelling.chars, Spelling.fractionChars, Spelling.powerChars]
  split
  · refine ⟨_, ?_, numeral.spells_before (k := (-(ds.length + e)).toNat) (by omega)⟩
    simp [Spelling.chars, Spelling.fractionChars, Spelling.powerChars]
  · match ds, numeral with
    | [], numeral => exact absurd rfl numeral.digits.1
    | [c], numeral =>
      refine ⟨_, ?_, numeral.spells_digit_power⟩
      simp [Spelling.chars, Spelling.fractionChars, Spelling.powerChars]
    | c :: next :: rest, numeral =>
      refine ⟨_, ?_, numeral.spells_power rfl⟩
      simp [Spelling.chars, Spelling.fractionChars, Spelling.powerChars]

theorem Number.exists_spelledAs_float {x : Binary64} (finite : x.isFinite = true) :
    ∃ negative s, (Number.float x).SpelledAs negative s := by
  cases x with
  | nan => cases finite
  | infinity => cases finite
  | finite negative units exact =>
    have spelled : ∃ s : Spelling,
        (if units = 0 then ['0', '.', '0'] else magnitudeText (Binary64.shortest .even units exact)) =
          s.chars ∧ s.IsProper ∧ (s.fraction ≠ none ∨ s.power ≠ none) ∧
        s.decimal.toBinary64 negative = .finite negative units exact := by
      split
      · rename_i zero
        subst zero
        exact ⟨{ whole := ['0'], fraction := some ['0'] }, rfl,
          ⟨by simp [IsDigits], .inl rfl, by simp [IsDigits]⟩, .inl (by simp), rfl⟩
      · rename_i positive
        have reads := Binary64.shortest_reads_back .even exact positive
        obtain ⟨s, chars, spells⟩ := exists_spelling (Decimal.digits_ne_zero reads positive)
        exact ⟨s, chars, spells.toIsProper, spells.marked,
          (spells.reads negative).trans (Decimal.toBinary64_of_unsigned reads negative)⟩
    obtain ⟨s, chars, proper, marked, reads⟩ := spelled
    refine ⟨negative, s, proper, ?_, ?_⟩
    · simp only [numberText, floatText, chars, String.toList_ofList]
      cases negative <;> rfl
    · rw [numberValue_of_marked marked (by rw [reads]; rfl), reads]

theorem Number.IsWritable.exists_spelledAs {n : Number} (writable : n.IsWritable) :
    ∃ negative s, n.SpelledAs negative s := by
  cases n with
  | integer i => exact ⟨_, _, spelledAs_integer writable⟩
  | float x => exact exists_spelledAs_float writable

theorem readNumber_numberText {n : Number} (writable : n.IsWritable) {rest : List Char}
    (stop : StopsNumber rest) :
    readNumber .nearest ((numberText n).toList ++ rest) = (.number n, some rest) := by
  obtain ⟨negative, s, spelled⟩ := writable.exists_spelledAs
  rw [spelled.text, readNumber_append _ negative spelled.proper stop, spelled.value]

/-- By its first character a number is told from every other value. -/
theorem exists_cons_numberText {n : Number} (writable : n.IsWritable) :
    ∃ c cs, (numberText n).toList = c :: cs ∧ (c = '-' ∨ c.isDigit = true) := by
  obtain ⟨negative, s, spelled⟩ := writable.exists_spelledAs
  cases negative with
  | true => exact ⟨'-', _, spelled.text, .inl rfl⟩
  | false =>
    obtain ⟨c, ds, whole⟩ := List.exists_cons_of_ne_nil spelled.proper.whole.1
    have text : (numberText n).toList = c :: (ds ++ Spelling.fractionChars s.fraction ++
        Spelling.powerChars s.power) := by
      rw [spelled.text, Spelling.chars, whole]
      rfl
    exact ⟨c, _, text, .inr (spelled.proper.whole.2 c (by simp [whole]))⟩

end Json
end Montage
