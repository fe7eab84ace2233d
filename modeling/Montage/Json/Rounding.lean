import Montage.Binary64.Decimal

/-! How the digits of a JSON number become a double: at once, or in the steps of a reader that keeps no
more than 64 bits of them. The steps come out beside the nearest double now and then. -/
namespace Montage.Json

inductive Rounding where
  /-- To the double that is nearest to the decimal. -/
  | nearest
  /-- The leading digits first, then what they make with each power of ten. -/
  | stepwise
deriving DecidableEq

namespace Rounding

/-- Takes up digits behind a number while 64 bits hold it, and counts those that are left. -/
def takeUp (n : Nat) : List Char → Nat × Nat
  | [] => (n, 0)
  | c :: rest =>
    let next := n * 10 + Numeral.digitValue c
    if next < Nat.pow 2 64 then takeUp next rest else (n, rest.length + 1)

/-- The largest power of ten that a double has room for. -/
def topPower : Nat := 308

def tenTo (k : Nat) : Binary64 := (Decimal.mk 1 k).toBinary64 false

/-- Divides by the largest power of ten some times, unless nothing is left before. -/
def lower (x : Binary64) : Nat → Binary64
  | 0 => x
  | n + 1 => if x.isZero then x else lower (x / tenTo topPower) n

/-- A positive number times a power of ten. -/
def scale (x : Binary64) (power : Int) : Binary64 :=
  if x.isZero then x
  else if 0 ≤ power then
    if power ≤ topPower then x * tenTo power.toNat else .infinity false
  else
    let k := power.natAbs
    let times := (k - 1) / topPower
    lower x times / tenTo (k - times * topPower)

def double (r : Rounding) (negative : Bool) (whole : List Char) (fraction : Option (List Char))
    (power : Option Int) : Binary64 :=
  let behind := fraction.getD []
  match r with
  | nearest => (Decimal.mk (Numeral.value (whole ++ behind)) (power.getD 0 - behind.length)).toBinary64
      negative
  | stepwise =>
    let (before, left) := takeUp 0 whole
    let (n, skipped) := takeUp before behind
    let taken : Int := behind.length - skipped
    let x := scale (.ofNat n) (left - taken + power.getD 0)
    if negative then -x else x

/-- Sixteen digits have room in 64 bits, but not in a double. -/
example : double .stepwise false ['0'] (some (List.replicate 16 '9')) none = 1 := by decide +kernel

end Rounding
end Montage.Json
