import Montage.Binary64.Basic

/-! The arithmetic of double-precision numbers. An operation on finite numbers is the exact one on
their counts of units followed by one rounding. -/
namespace Montage.Binary64

def neg : Binary64 → Binary64
  | nan => nan
  | infinity negative => .infinity !negative
  | finite negative units exact => .finite (!negative) units exact

def signedUnits (negative : Bool) (units : Nat) : Int := if negative then -units else units

/-- An exact sum of zero is negative only when both sides are. -/
def add : Binary64 → Binary64 → Binary64
  | nan, _ | _, nan => nan
  | infinity a, infinity b => if a = b then .infinity a else nan
  | infinity a, finite .. | finite .., infinity a => .infinity a
  | finite a m _, finite b n _ =>
    let sum := signedUnits a m + signedUnits b n
    if sum = 0 then zero (a && b) else ofRatio (sum < 0) sum.natAbs 1

def sub (x y : Binary64) : Binary64 := add x (neg y)

def mul : Binary64 → Binary64 → Binary64
  | nan, _ | _, nan => nan
  | infinity a, infinity b => .infinity (a != b)
  | infinity a, finite b n _ | finite b n _, infinity a =>
    if n = 0 then nan else .infinity (a != b)
  | finite a m _, finite b n _ => ofRatio (a != b) (m * n) one

def div : Binary64 → Binary64 → Binary64
  | nan, _ | _, nan => nan
  | infinity _, infinity _ => nan
  | infinity a, finite b _ _ => .infinity (a != b)
  | finite a _ _, infinity b => zero (a != b)
  | finite a m _, finite b n _ =>
    if n = 0 then if m = 0 then nan else .infinity (a != b)
    else ofRatio (a != b) (m * one) n

instance : Neg Binary64 := ⟨neg⟩
instance : Add Binary64 := ⟨add⟩
instance : Sub Binary64 := ⟨sub⟩
instance : Mul Binary64 := ⟨mul⟩
instance : Div Binary64 := ⟨div⟩
instance (n : Nat) : OfNat Binary64 n := ⟨ofNat n⟩

/-- The nearest whole number, a half going up, held between zero and `2 ^ 64 - 1`. Not a number
counts as zero. -/
def roundToWhole : Binary64 → Nat
  | nan => 0
  | infinity negative => if negative then 0 else Nat.pow 2 64 - 1
  | finite negative units _ =>
    if negative then 0 else Nat.min ((2 * units + one) / (2 * one)) (Nat.pow 2 64 - 1)

end Montage.Binary64
