import Montage.Json.Printer
import Montage.Json.Reader

/-! Texts as a layer of their own below the values. Records are read and written above it, whatever
layer that is. -/
namespace Montage.Json

structure TextLayer where
  read : String → Document
  write : Json → String

namespace TextLayer

/-- The layer of the program. -/
def standard : TextLayer := ⟨Json.read, compact⟩

/-- A layer that rounds each number at once. -/
def nearest (write : Json → String) : TextLayer := ⟨fun s => readChars .nearest s.toList, write⟩

end TextLayer
end Montage.Json
