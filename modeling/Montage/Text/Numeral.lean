/-! Decimal numerals over characters: the digits of a natural number, and the value of a run of
digits. Reading the digits of a number gives the number back. -/
namespace Montage.Numeral

def digitChar (d : Nat) : Char := Char.ofNat (d + 48)

def digitValue (c : Char) : Nat := c.toNat - 48

/-- The digits of `n`, most significant first, without leading zeros. -/
def digits (n : Nat) : List Char :=
  if n < 10 then [digitChar n] else digits (n / 10) ++ [digitChar (n % 10)]

def width (n : Nat) : Nat := if n < 10 then 1 else width (n / 10) + 1

/-- The number written by a run of digits; the empty run is zero. -/
def value (cs : List Char) : Nat := cs.foldl (fun n c => n * 10 + digitValue c) 0

def padded (places n : Nat) : List Char :=
  let ds := digits n
  List.replicate (places - ds.length) '0' ++ ds

def text (n : Nat) : String := String.ofList (digits n)

def signedText (i : Int) : String :=
  if i < 0 then "-" ++ text i.natAbs else text i.natAbs

/-- A number below `2 ^ 64`: digits after at most one plus sign. -/
def readUnsigned? (cs : List Char) : Option Nat :=
  let ds := match cs with
    | '+' :: r => r
    | _ => cs
  if ds ≠ [] ∧ ds.all Char.isDigit ∧ value ds < Nat.pow 2 64 then some (value ds) else none

/-- A number from `-2 ^ 63` to `2 ^ 63 - 1`: digits after at most one sign. -/
def readSigned? (cs : List Char) : Option Int :=
  let (negative, ds) := match cs with
    | '+' :: r => (false, r)
    | '-' :: r => (true, r)
    | _ => (false, cs)
  let i : Int := if negative then -(value ds : Int) else value ds
  if ds ≠ [] ∧ ds.all Char.isDigit ∧ -Int.pow 2 63 ≤ i ∧ i < Int.pow 2 63 then some i else none

theorem width_eq_length (n : Nat) : width n = (digits n).length := by
  fun_induction width n with
  | case1 n h => simp [digits, h]
  | case2 n h ih => rw [digits, if_neg h]; simp [ih]

theorem digitValue_digitChar {d : Nat} (h : d < 10) : digitValue (digitChar d) = d := by
  have all : ∀ e ∈ List.range 10, digitValue (digitChar e) = e := by decide
  exact all d (List.mem_range.2 h)

theorem value_append_singleton (cs : List Char) (c : Char) :
    value (cs ++ [c]) = value cs * 10 + digitValue c := by
  simp [value]

theorem value_digits (n : Nat) : value (digits n) = n := by
  fun_induction digits n with
  | case1 n h => simp [value, digitValue_digitChar h]
  | case2 n h ih =>
    rw [value_append_singleton, ih, digitValue_digitChar (Nat.mod_lt _ (by omega))]
    omega

theorem digits_inj {m n : Nat} (h : digits m = digits n) : m = n := by
  rw [← value_digits m, h, value_digits]

theorem text_inj {m n : Nat} (h : text m = text n) : m = n :=
  digits_inj (String.ofList_injective h)

end Montage.Numeral
