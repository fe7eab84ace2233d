import Mathlib.Data.List.Induction
import Montage.Json.Printer
import Montage.Json.Reader

/-! Strings read back from their quoted text. The writer escapes one character at a time, and the
reader makes one piece of what it wrote for each: a code unit for a control character that has no
letter of its own, and the character itself for every other one. -/
namespace Montage.Json

def pieceOf (c : Char) : Piece :=
  if c.toNat < 0x20 ∧ c ∉ ['\n', '\r', '\t', '\x08', '\x0c'] then .unit c.toNat else .char c

/-- Four digits are enough for a control character, the first two of them zeros. -/
theorem hexFour_of_control {n : Nat} (control : n < 0x20) :
    ∃ high low, hexFour n = ['0', '0', high, low] ∧ hexUnit? ['0', '0', high, low] = some n := by
  have all : ∀ n ∈ List.range 0x20, hexFour n = '0' :: '0' :: (hexFour n).drop 2 ∧
      (hexFour n).length = 4 ∧ hexUnit? (hexFour n) = some n := by decide
  obtain ⟨zeros, four, reads⟩ := all n (List.mem_range.2 control)
  obtain ⟨a, b, c, d, digits⟩ : ∃ a b c d, hexFour n = [a, b, c, d] := by
    match hexFour n, four with
    | [a, b, c, d], _ => exact ⟨a, b, c, d, rfl⟩
  rw [digits] at zeros reads
  obtain ⟨rfl, rfl⟩ : a = '0' ∧ b = '0' := by simpa using zeros
  exact ⟨c, d, digits, reads⟩

theorem readPieces_escapedChar (done : List Piece) (c : Char) (cs : List Char) :
    readPieces done (escapedChar c ++ cs) = readPieces (pieceOf c :: done) cs := by
  by_cases short : c ∈ ['"', '\\', '\n', '\r', '\t', '\x08', '\x0c']
  · simp only [List.mem_cons, List.not_mem_nil, or_false] at short
    rcases short with rfl | rfl | rfl | rfl | rfl | rfl | rfl <;> rfl
  simp only [List.mem_cons, List.not_mem_nil, or_false, not_or] at short
  by_cases control : c.toNat < 0x20
  · obtain ⟨high, low, digits, reads⟩ := hexFour_of_control control
    have escaped : escapedChar c = '\\' :: 'u' :: ['0', '0', high, low] := by
      simp [escapedChar, short, control, digits]
    have piece : pieceOf c = .unit c.toNat := by simp [pieceOf, control, short]
    rw [escaped, piece]
    simp [readPieces, reads]
  · have plain : escapedChar c = [c] := by simp [escapedChar, short, control]
    have piece : pieceOf c = .char c := by simp [pieceOf, control]
    rw [plain, piece]
    simp [readPieces, short, control]

theorem readPieces_flatMap (done : List Piece) (text rest : List Char) :
    readPieces done (text.flatMap escapedChar ++ '"' :: rest) =
      ((text.map pieceOf).reverse ++ done, .ok rest) := by
  induction text generalizing done with
  | nil => rfl
  | cons c text ih =>
    rw [List.flatMap_cons, List.append_assoc, readPieces_escapedChar, ih]
    simp

theorem joinPieces?_unit (text : List Char) {n : Nat} (low : isLowSurrogate n = false)
    (high : isHighSurrogate n = false) (before : List Piece) :
    joinPieces? text (.unit n :: before) = joinPieces? (Char.ofNat n :: text) before := by
  rcases before with _ | ⟨_ | _, before⟩ <;> simp [joinPieces?, low, high]

/-- No control character is half of a surrogate pair. -/
theorem joinPieces?_pieceOf (text : List Char) (c : Char) (before : List Piece) :
    joinPieces? text (pieceOf c :: before) = joinPieces? (c :: text) before := by
  unfold pieceOf
  split
  · rename_i control
    have low : isLowSurrogate c.toNat = false := by simp [isLowSurrogate]; omega
    have high : isHighSurrogate c.toNat = false := by simp [isHighSurrogate]; omega
    rw [joinPieces?_unit text low high, Char.ofNat_toNat]
  · rfl

theorem joinPieces?_reverse_map (text cs : List Char) :
    joinPieces? cs (text.map pieceOf).reverse = some (text ++ cs) := by
  induction text using List.reverseRecOn generalizing cs with
  | nil => rfl
  | append_singleton text c ih =>
    rw [List.map_append, List.map_singleton, List.reverse_append, List.reverse_singleton,
      List.singleton_append, joinPieces?_pieceOf, ih]
    simp

/-- Behind its opening quote a written string is read as it was. -/
theorem readString_flatMap (s : String) (rest : List Char) :
    readString (s.toList.flatMap escapedChar ++ '"' :: rest) = (.string s, some rest) := by
  rw [readString, readPieces_flatMap]
  simp [joinPieces?_reverse_map]

end Montage.Json
