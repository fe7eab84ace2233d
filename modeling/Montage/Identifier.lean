/-! Random identifiers in the usual form of 36 characters: 32 hexadecimal digits in five groups. -/
namespace Montage.Identifier

/-- The sixteen bytes with the version (four) and the variant written over six of their bits. -/
def mark (bytes : List UInt8) : List UInt8 :=
  bytes.mapIdx fun i b =>
    if i = 6 then b &&& 0x0F ||| 0x40
    else if i = 8 then b &&& 0x3F ||| 0x80
    else b

def hexChar (n : Nat) : Char := Nat.digitChar n

def hexByte (b : UInt8) : List Char := [hexChar (b.toNat / 16), hexChar (b.toNat % 16)]

/-- The identifier with the given random bytes, of which there are sixteen. -/
def ofBytes (bytes : List UInt8) : String :=
  let digits := (mark bytes).flatMap hexByte
  let group (start length : Nat) := (digits.drop start).take length
  String.ofList (['-'].intercalate [group 0 8, group 8 4, group 12 4, group 16 4, group 20 12])

end Montage.Identifier
