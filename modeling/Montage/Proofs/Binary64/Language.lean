import Montage.Proofs.PlainDecimal

/-! The language of numbers. A text is read as a number just if it is one: after at most one sign a word
for what is not finite, or a decimal with digits on at least one side of its point and perhaps a power
of ten. -/
namespace Montage

inductive IsSigned (body : List Char) : Bool → List Char → Prop where
  | bare : IsSigned body false body
  | plus : IsSigned body false ('+' :: body)
  | minus : IsSigned body true ('-' :: body)

def Unsigned (cs : List Char) : Prop := ∀ c ∈ cs.head?, c ≠ '+' ∧ c ≠ '-'

theorem IsDigits.unsigned {ds : List Char} (h : IsDigits ds) : Unsigned ds := by
  intro c first
  have digit := h.2 c (List.mem_of_mem_head? first)
  constructor <;> rintro rfl <;> cases digit

namespace Decimal

def IsPower (cs : List Char) (x : Int) : Prop :=
  ∃ negative ds, IsSigned ds negative cs ∧ IsDigits ds ∧
    x = if negative then -(Numeral.value ds : Int) else Numeral.value ds

/-- All digits of a decimal, and how many of them stand behind its point. -/
inductive IsMantissa : List Char → List Char → Nat → Prop where
  | whole {ds : List Char} : IsDigits ds → IsMantissa ds ds 0
  | point {whole fraction : List Char} : IsDigits (whole ++ fraction) →
      IsMantissa (whole ++ '.' :: fraction) (whole ++ fraction) fraction.length

inductive IsDecimal : List Char → Decimal → Prop where
  | plain {cs ds : List Char} {places : Nat} : IsMantissa cs ds places →
      IsDecimal cs ⟨Numeral.value ds, -places⟩
  | scaled {cs ds power : List Char} {places : Nat} {mark : Char} {x : Int} :
      IsMantissa cs ds places → mark = 'e' ∨ mark = 'E' → IsPower power x →
      IsDecimal (cs ++ mark :: power) ⟨Numeral.value ds, x - places⟩

theorem readExponent?_eq_some_iff {cs : List Char} {x : Int} :
    readExponent? cs = some x ↔ IsPower cs x := by
  have accepted {negative : Bool} {ds : List Char} :
      (if ds = [] ∨ !ds.all Char.isDigit then none
        else some (if negative then -(Numeral.value ds : Int) else Numeral.value ds)) = some x ↔
      IsDigits ds ∧ x = if negative then -(Numeral.value ds : Int) else Numeral.value ds := by
    rw [Option.ite_none_left_eq_some, Option.some.injEq, eq_comm (b := x)]
    simp [IsDigits]
  constructor
  · intro read
    simp only [readExponent?] at read
    split at read
    · exact ⟨false, _, .plus, accepted.1 read⟩
    · exact ⟨true, _, .minus, accepted.1 read⟩
    · exact ⟨false, _, .bare, accepted.1 read⟩
  · rintro ⟨negative, ds, sign, digits, value⟩
    have read := accepted.2 ⟨digits, value⟩
    cases sign with
    | plus => exact read
    | minus => exact read
    | bare =>
      have unsigned := digits.unsigned
      simp only [readExponent?]
      split
      · exact absurd rfl (unsigned '+' rfl).1
      · exact absurd rfl (unsigned '-' rfl).2
      · exact read

def readScale? (digits places : Nat) : List Char → Option Decimal
  | [] => some ⟨digits, -places⟩
  | mark :: power =>
    if mark = 'e' ∨ mark = 'E' then (readExponent? power).map fun x => ⟨digits, x - places⟩ else none

theorem readScale?_eq_some_iff {digits places : Nat} {rest : List Char} {d : Decimal} :
    readScale? digits places rest = some d ↔ rest = [] ∧ d = ⟨digits, -places⟩ ∨
      ∃ mark power x, rest = mark :: power ∧ (mark = 'e' ∨ mark = 'E') ∧ IsPower power x ∧
        d = ⟨digits, x - places⟩ := by
  cases rest with
  | nil => simp [readScale?, eq_comm]
  | cons mark power =>
    rw [readScale?, Option.ite_none_right_eq_some, Option.map_eq_some_iff]
    simp only [readExponent?_eq_some_iff]
    constructor
    · rintro ⟨e, x, scale, rfl⟩
      exact .inr ⟨mark, power, x, rfl, e, scale, rfl⟩
    · rintro (⟨ended, -⟩ | ⟨_, _, x, same, e, scale, rfl⟩)
      · cases ended
      · cases same
        exact ⟨e, x, scale, rfl⟩

theorem read?_whole {ds rest : List Char} (digits : ∀ c ∈ ds, c.isDigit = true)
    (stop : ∀ c ∈ rest.head?, c.isDigit = false ∧ c ≠ '.') :
    read? (ds ++ rest) = if ds = [] then none else readScale? (Numeral.value ds) 0 rest := by
  have parted := span_digits digits fun c first => (stop c first).1
  unfold read?
  rw [parted]
  cases rest with
  | nil => simp [readScale?]
  | cons c rest =>
    have point := (stop c rfl).2
    simp [readScale?, point]

theorem read?_around_point {whole fraction rest : List Char}
    (digits : ∀ c ∈ whole ++ fraction, c.isDigit = true)
    (stop : ∀ c ∈ rest.head?, c.isDigit = false) :
    read? (whole ++ '.' :: (fraction ++ rest)) = if whole ++ fraction = [] then none
      else readScale? (Numeral.value (whole ++ fraction)) fraction.length rest := by
  obtain ⟨before, behind⟩ := List.forall_mem_append.1 digits
  have point : ∀ c ∈ ('.' :: (fraction ++ rest)).head?, c.isDigit = false := by
    rintro c ⟨⟩
    rfl
  unfold read?
  rw [span_digits before point]
  simp only [span_digits behind stop, List.append_eq_nil_iff]
  cases rest <;> rfl

/-- Every text begins with digits, around a point or without one, and goes on otherwise. -/
theorem exists_digits (cs : List Char) :
    (∃ ds rest, cs = ds ++ rest ∧ (∀ c ∈ ds, c.isDigit = true) ∧
      ∀ c ∈ rest.head?, c.isDigit = false ∧ c ≠ '.') ∨
    ∃ whole fraction rest, cs = whole ++ '.' :: (fraction ++ rest) ∧
      (∀ c ∈ whole ++ fraction, c.isDigit = true) ∧ ∀ c ∈ rest.head?, c.isDigit = false := by
  obtain ⟨whole, behind, rfl, digits, stop⟩ := exists_digits_append cs
  by_cases point : behind.head? = some '.'
  · obtain ⟨after, rfl⟩ := List.head?_eq_some_iff.1 point
    obtain ⟨fraction, rest, rfl, more, ends⟩ := exists_digits_append after
    exact .inr ⟨whole, fraction, rest, rfl, List.forall_mem_append.2 ⟨digits, more⟩, ends⟩
  · refine .inl ⟨whole, behind, rfl, digits, fun c first => ⟨stop c first, ?_⟩⟩
    rintro rfl
    exact point first

theorem IsMantissa.read?_append {cs ds rest : List Char} {places : Nat} (h : IsMantissa cs ds places)
    (stop : ∀ c ∈ rest.head?, c.isDigit = false ∧ c ≠ '.') :
    read? (cs ++ rest) = readScale? (Numeral.value ds) places rest := by
  cases h with
  | whole digits => rw [read?_whole digits.2 stop, if_neg digits.1]
  | point digits =>
    rw [List.append_assoc, List.cons_append,
      read?_around_point digits.2 fun c first => (stop c first).1, if_neg digits.1]

theorem IsMantissa.isDecimal {cs ds rest : List Char} {places : Nat} {d : Decimal}
    (h : IsMantissa cs ds places) (read : readScale? (Numeral.value ds) places rest = some d) :
    IsDecimal (cs ++ rest) d := by
  rcases readScale?_eq_some_iff.1 read with ⟨rfl, rfl⟩ | ⟨mark, power, x, rfl, e, scale, rfl⟩
  · rw [List.append_nil]
    exact .plain h
  · exact .scaled h e scale

theorem read?_eq_some_iff {cs : List Char} {d : Decimal} : read? cs = some d ↔ IsDecimal cs d := by
  constructor
  · intro read
    rcases exists_digits cs with ⟨ds, rest, rfl, digits, stop⟩ | ⟨whole, fraction, rest, rfl, digits, stop⟩
    · rw [read?_whole digits stop] at read
      obtain ⟨nonempty, scale⟩ := Option.ite_none_left_eq_some.1 read
      exact (IsMantissa.whole ⟨nonempty, digits⟩).isDecimal scale
    · rw [read?_around_point digits stop] at read
      obtain ⟨nonempty, scale⟩ := Option.ite_none_left_eq_some.1 read
      have decimal := (IsMantissa.point ⟨nonempty, digits⟩).isDecimal scale
      rwa [List.append_assoc, List.cons_append] at decimal
  · intro decimal
    cases decimal with
    | plain mantissa =>
      have read := mantissa.read?_append (by simp : ∀ c ∈ ([] : List Char).head?, _)
      rwa [List.append_nil] at read
    | @scaled cs ds power places mark x mantissa e scale =>
      have stop : ∀ c ∈ (mark :: power).head?, c.isDigit = false ∧ c ≠ '.' := by
        rintro c ⟨⟩
        rcases e with rfl | rfl <;> decide
      rw [mantissa.read?_append stop, readScale?_eq_some_iff]
      exact .inr ⟨mark, power, x, rfl, e, scale, rfl⟩

theorem IsDecimal.exists_cons {cs : List Char} {d : Decimal} (h : IsDecimal cs d) :
    ∃ c rest, cs = c :: rest ∧ (c.isDigit = true ∨ c = '.') := by
  have mantissa {cs ds : List Char} {places : Nat} (h : IsMantissa cs ds places) :
      ∃ c rest, cs = c :: rest ∧ (c.isDigit = true ∨ c = '.') := by
    cases h with
    | whole digits =>
      obtain ⟨c, rest, rfl⟩ := List.exists_cons_of_ne_nil digits.1
      exact ⟨c, rest, rfl, .inl (digits.2 c List.mem_cons_self)⟩
    | @point whole fraction digits =>
      cases whole with
      | nil => exact ⟨'.', fraction, rfl, .inr rfl⟩
      | cons c whole => exact ⟨c, _, rfl, .inl (digits.2 c List.mem_cons_self)⟩
  cases h with
  | plain h => exact mantissa h
  | scaled h =>
    obtain ⟨c, rest, rfl, first⟩ := mantissa h
    exact ⟨c, _, rfl, first⟩

end Decimal

namespace Binary64

/-- What a number without its sign stands for under a sign. Words are read in any letter case. -/
inductive IsMagnitude (negative : Bool) : List Char → Binary64 → Prop where
  | infinite {word : List Char} : word.map Char.toLower = "inf".toList ∨
      word.map Char.toLower = "infinity".toList → IsMagnitude negative word (.infinity negative)
  | nan {word : List Char} : word.map Char.toLower = "nan".toList → IsMagnitude negative word .nan
  | decimal {cs : List Char} {d : Decimal} : Decimal.IsDecimal cs d →
      IsMagnitude negative cs (d.toBinary64 negative)

def IsNumber (cs : List Char) (x : Binary64) : Prop :=
  ∃ negative body, IsSigned body negative cs ∧ IsMagnitude negative body x

def readMagnitude? (negative : Bool) (cs : List Char) : Option Binary64 :=
  let word := cs.map Char.toLower
  if word = "inf".toList ∨ word = "infinity".toList then some (.infinity negative)
  else if word = "nan".toList then some .nan
  else (Decimal.read? cs).map (Decimal.toBinary64 negative)

section
variable {negative : Bool} {cs body : List Char} {x : Binary64}

/-- The sign that a text begins with is not part of the number that is read. -/
theorem readChars?_cases (cs : List Char) : ∃ negative body, IsSigned body negative cs ∧
    readChars? cs = readMagnitude? negative body := by
  unfold readChars?
  split
  rename_i parted
  split at parted
  · cases parted
    exact ⟨false, _, .plus, rfl⟩
  · cases parted
    exact ⟨true, _, .minus, rfl⟩
  · cases parted
    exact ⟨false, _, .bare, rfl⟩

theorem readChars?_of_isSigned (sign : IsSigned body negative cs) (unsigned : Unsigned body) :
    readChars? cs = readMagnitude? negative body := by
  cases sign with
  | plus => rfl
  | minus => rfl
  | bare =>
    obtain ⟨negative, rest, sign, read⟩ := readChars?_cases cs
    cases sign with
    | plus => exact absurd rfl (unsigned '+' rfl).1
    | minus => exact absurd rfl (unsigned '-' rfl).2
    | bare => exact read

theorem toLower_of_isDigit {c : Char} (digit : c.isDigit = true) : c.toLower = c := by
  have digit : '0'.val ≤ c.val ∧ c.val ≤ '9'.val := by simpa [Char.isDigit] using digit
  unfold Char.toLower
  apply dif_neg
  intro upper
  have below := UInt32.le_iff_toNat_le.1 digit.2
  have above := UInt32.le_iff_toNat_le.1 upper.1
  simp only [Char.reduceVal, UInt32.reduceToNat] at below above
  omega

/-- Words begin with letters, and decimals do not. -/
theorem readMagnitude?_of_isDecimal {d : Decimal} (h : Decimal.IsDecimal cs d) :
    readMagnitude? negative cs = some (d.toBinary64 negative) := by
  obtain ⟨c, rest, rfl, first⟩ := h.exists_cons
  have same : c.toLower = c := by
    rcases first with digit | rfl
    · exact toLower_of_isDigit digit
    · decide
  have infinite : c ≠ 'i' := by
    rintro rfl
    simp at first
  have nothing : c ≠ 'n' := by
    rintro rfl
    simp at first
  simp [readMagnitude?, same, infinite, nothing, Decimal.read?_eq_some_iff.2 h]

theorem readMagnitude?_eq_some_iff :
    readMagnitude? negative cs = some x ↔ IsMagnitude negative cs x := by
  constructor
  · intro read
    simp only [readMagnitude?] at read
    split at read
    · rename_i word
      cases read
      exact .infinite word
    · split at read
      · rename_i word
        cases read
        exact .nan word
      · obtain ⟨d, decimal, rfl⟩ := Option.map_eq_some_iff.1 read
        exact .decimal (Decimal.read?_eq_some_iff.1 decimal)
  · intro magnitude
    cases magnitude with
    | infinite word => exact if_pos word
    | nan word =>
      unfold readMagnitude?
      rw [word]
      rfl
    | decimal h => exact readMagnitude?_of_isDecimal h

theorem IsMagnitude.unsigned (h : IsMagnitude negative cs x) : Unsigned cs := by
  have letter {c d : Char} (same : c.toLower = d) (apart : '+'.toLower ≠ d ∧ '-'.toLower ≠ d) :
      c ≠ '+' ∧ c ≠ '-' := by
    constructor <;> rintro rfl
    · exact apart.1 same
    · exact apart.2 same
  intro c first
  obtain ⟨rest, rfl⟩ := List.head?_eq_some_iff.1 first
  cases h with
  | infinite word =>
    have first : c.toLower = 'i' := by
      rcases word with same | same <;> exact (List.cons.inj same).1
    exact letter first (by decide)
  | nan word => exact letter (List.cons.inj word).1 (by decide)
  | decimal h =>
    obtain ⟨d, rest, same, digit⟩ := h.exists_cons
    cases same
    constructor <;> rintro rfl <;> simp at digit

/-- The reader knows all numbers, and nothing else. -/
theorem readChars?_eq_some_iff : readChars? cs = some x ↔ IsNumber cs x := by
  constructor
  · intro read
    obtain ⟨negative, body, sign, same⟩ := readChars?_cases cs
    exact ⟨negative, body, sign, readMagnitude?_eq_some_iff.1 (same.symm.trans read)⟩
  · rintro ⟨negative, body, sign, magnitude⟩
    rw [readChars?_of_isSigned sign magnitude.unsigned, readMagnitude?_eq_some_iff]
    exact magnitude

end

end Binary64

end Montage
