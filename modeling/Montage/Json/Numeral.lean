import Montage.Json.Basic

/-! The text of JSON numbers. A double is written with the fewest digits that read back to it, and a
tie goes to the even one. From `10 ^ -5` to `10 ^ 16` the digits stand in their places, with at least
one behind the point; outside, a power of ten with its sign follows. -/
namespace Montage.Json

/-- The power of ten behind a number, always with a sign. -/
def powerText (power : Int) : List Char :=
  'e' :: (if power < 0 then '-' else '+') :: Numeral.digits power.natAbs

def magnitudeText (d : Decimal) : List Char :=
  let ds := Numeral.digits d.digits
  let point := ds.length + d.exponent
  if 0 ≤ d.exponent ∧ point ≤ 16 then
    ds ++ List.replicate d.exponent.toNat '0' ++ ['.', '0']
  else if 0 < point ∧ point ≤ 16 then ds.take point.toNat ++ '.' :: ds.drop point.toNat
  else if -5 < point ∧ point ≤ 0 then '0' :: '.' :: List.replicate (-point).toNat '0' ++ ds
  else match ds with
    | [] => []
    | [c] => c :: powerText (point - 1)
    | c :: rest => c :: '.' :: rest ++ powerText (point - 1)

/-- JSON has no text for what is not finite. -/
def floatText : Binary64 → String
  | .finite negative units exact =>
    let magnitude := if units = 0 then ['0', '.', '0']
      else magnitudeText (Binary64.shortest .even units exact)
    String.ofList (if negative then '-' :: magnitude else magnitude)
  | _ => "null"

def numberText : Number → String
  | .integer i => Numeral.signedText i
  | .float x => floatText x

end Montage.Json
