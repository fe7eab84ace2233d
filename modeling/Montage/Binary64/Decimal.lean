import Montage.Binary64.Arithmetic
import Montage.Text.Numeral

/-! Double-precision numbers as decimal text. Writing chooses the fewest digits that read back to
the same number and lays them out without an exponent; reading rounds to the nearest number. -/
namespace Montage

structure Decimal where
  digits : Nat
  exponent : Int
deriving DecidableEq, Repr

namespace Decimal

/-- The double nearest to a signed decimal. Far outside the range the powers of ten are not
formed: a value of at least `10 ^ 310` is too large, one below `10 ^ -330` rounds to zero. -/
def toBinary64 (negative : Bool) (d : Decimal) : Binary64 :=
  let top := d.exponent + Numeral.width d.digits
  if d.digits = 0 ∨ top < -330 then Binary64.zero negative
  else if 310 < top then .infinity negative
  else Binary64.ofRatio negative (d.digits * Nat.pow 10 d.exponent.toNat * Binary64.one)
    (Nat.pow 10 (-d.exponent).toNat)

def plain (d : Decimal) : List Char :=
  let ds := Numeral.digits d.digits
  if 0 ≤ d.exponent then ds ++ List.replicate d.exponent.toNat '0'
  else
    let places := (-d.exponent).toNat
    if places < ds.length then ds.take (ds.length - places) ++ '.' :: ds.drop (ds.length - places)
    else '0' :: '.' :: (List.replicate (places - ds.length) '0' ++ ds)

/-- A power of ten: `e` or `E`, at most one sign, at least one digit, and nothing after it. -/
def readExponent? (cs : List Char) : Option Int :=
  let (negative, ds) := match cs with
    | '+' :: r => (false, r)
    | '-' :: r => (true, r)
    | _ => (false, cs)
  if ds = [] ∨ !ds.all Char.isDigit then none
  else some (if negative then -(Numeral.value ds : Int) else Numeral.value ds)

/-- An unsigned decimal: digits with at most one point among or beside them, then perhaps a power
of ten. -/
def read? (cs : List Char) : Option Decimal :=
  let (whole, afterWhole) := cs.span Char.isDigit
  let (fraction, rest) := match afterWhole with
    | '.' :: r => r.span Char.isDigit
    | r => ([], r)
  if whole = [] ∧ fraction = [] then none
  else
    let digits := Numeral.value (whole ++ fraction)
    match rest with
    | [] => some ⟨digits, -fraction.length⟩
    | e :: r =>
      if e = 'e' ∨ e = 'E' then (readExponent? r).map fun x => ⟨digits, x - fraction.length⟩
      else none

end Decimal

namespace Binary64

/-- A magnitude in decimal, exactly: `k` units are `k * 5 ^ 1074 * 10 ^ -1074`. -/
def exactDecimal (units : Nat) : Decimal := ⟨units * Nat.pow 5 1074, -1074⟩

/-- Which of two decimals at equal distance is taken: the larger, or the one whose last digit is even. -/
inductive Tie where
  | larger
  | even
deriving DecidableEq

/-- Whether a tie goes to the smaller of two neighbours, which ends in the last digit of `n`. -/
def Tie.isBelow (tie : Tie) (n : Nat) : Bool := tie = .even && n % 2 = 0

/-- Cutting a decimal of `total` digits after the first `kept` leaves two neighbours. Of those that
read back as `x` the nearer one is taken. A neighbour that is a power of ten has one digit. -/
def cut? (tie : Tie) (x : Binary64) (d : Decimal) (total kept : Nat) : Option Decimal :=
  let scale := Nat.pow 10 (total - kept)
  let exponent := d.exponent + (total - kept : Nat)
  let n := d.digits / scale
  let below : Decimal := ⟨n, exponent⟩
  let above : Decimal := if n + 1 = Nat.pow 10 kept then ⟨1, exponent + kept⟩ else ⟨n + 1, exponent⟩
  let readsBack (c : Decimal) : Bool := c.toBinary64 false = x
  match readsBack below, readsBack above with
  | true, true =>
    let twice := 2 * (d.digits % scale)
    some (if twice < scale ∨ twice = scale ∧ tie.isBelow n then below else above)
  | true, false => some below
  | false, true => some above
  | false, false => none

/-- The shortest decimal that reads back to a positive magnitude, nearest to it among those. -/
def shortest (tie : Tie) (units : Nat) (exact : Representable units) : Decimal :=
  let d := exactDecimal units
  let total := Numeral.width d.digits
  ((List.range' 1 17).findSome? (cut? tie (.finite false units exact) d total)).getD d

/-- Plain decimal text: never an exponent, and no point in a whole number. Ties go up. -/
def chars : Binary64 → List Char
  | nan => "NaN".toList
  | infinity negative => if negative then "-inf".toList else "inf".toList
  | finite negative units exact =>
    let magnitude := if units = 0 then ['0'] else (shortest .larger units exact).plain
    if negative then '-' :: magnitude else magnitude

def text (x : Binary64) : String := String.ofList x.chars

instance : ToString Binary64 := ⟨text⟩

/-- Reads an optional sign, then `inf`, `infinity` or `nan` in any letter case, or a decimal. -/
def readChars? (cs : List Char) : Option Binary64 :=
  let (negative, rest) := match cs with
    | '+' :: r => (false, r)
    | '-' :: r => (true, r)
    | _ => (false, cs)
  let word := rest.map Char.toLower
  if word = "inf".toList ∨ word = "infinity".toList then some (.infinity negative)
  else if word = "nan".toList then some .nan
  else (Decimal.read? rest).map (Decimal.toBinary64 negative)

def read? (s : String) : Option Binary64 := readChars? s.toList

end Binary64
end Montage
