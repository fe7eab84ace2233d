/-! Sets of characters as lists of ranges of code points, the first and the last of each. -/
namespace Montage.Text

/-- A set in three parts: the code points below U+3000, those up to U+FFFF, and those beyond. -/
structure Ranges where
  low : List (Nat × Nat)
  high : List (Nat × Nat)
  beyond : List (Nat × Nat)

namespace Ranges

def within (ranges : List (Nat × Nat)) (n : Nat) : Bool :=
  ranges.any fun (first, last) => first ≤ n && n ≤ last

def contains (r : Ranges) (c : Char) : Bool :=
  let n := c.toNat
  if n < 0x3000 then within r.low n
  else if n < 0x10000 then within r.high n
  else within r.beyond n

end Ranges
end Montage.Text
