/-! Bytes, as files and reports hold them, and the text they may be. -/
namespace Montage

abbrev Bytes := List UInt8

namespace Bytes

def ofText (s : String) : Bytes := s.toUTF8.data.toList

def text? (bytes : Bytes) : Option String := String.fromUTF8? ⟨bytes.toArray⟩

def lines : Bytes → List Bytes
  | [] => []
  | b :: bytes =>
    if b = 10 then [b] :: lines bytes
    else match lines bytes with
      | [] => [[b]]
      | line :: rest => (b :: line) :: rest

end Bytes
end Montage
