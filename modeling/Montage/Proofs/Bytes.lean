import Mathlib.Data.List.Induction
import Montage.Bytes

/-! Texts as bytes. A byte below 128 stands for a character of its own, so line feeds can be looked for
among the bytes of a text. -/
namespace Montage.Bytes

theorem ofText_ofList (cs : List Char) :
    ofText (String.ofList cs) = cs.flatMap String.utf8EncodeChar := by
  rw [ofText, String.toUTF8, String.toByteArray_ofList, List.utf8Encode, List.data_toByteArray]

theorem ofText_ofList_append (as bs : List Char) :
    ofText (String.ofList (as ++ bs)) = ofText (String.ofList as) ++ ofText (String.ofList bs) := by
  simp only [ofText_ofList, List.flatMap_append]

theorem ofText_ne_nil {cs : List Char} (h : cs ≠ []) : ofText (String.ofList cs) ≠ [] := by
  obtain ⟨c, rest, rfl⟩ := List.exists_cons_of_ne_nil h
  rw [ofText_ofList, List.flatMap_cons]
  exact List.append_ne_nil_of_left_ne_nil String.utf8EncodeChar_ne_nil _

theorem text?_ofText (s : String) : text? (ofText s) = some s :=
  dif_pos s.isValidUTF8

/-- A byte below 128 is a character alone. -/
theorem toNat_eq_of_mem_utf8EncodeChar {c : Char} {b : UInt8}
    (found : b ∈ String.utf8EncodeChar c) (small : b.toNat < 128) : c.toNat = b.toNat := by
  have value {k : Nat} (high : k < 256) (same : b = UInt8.ofNat k) : b.toNat = k := by
    rw [same]
    exact UInt8.toNat_ofNat_of_lt' high
  have large {k : Nat} (low : 128 ≤ k) (high : k < 256) (same : b = UInt8.ofNat k) : False := by
    have := value high same
    omega
  simp only [String.utf8EncodeChar] at found
  split_ifs at found with one two three
  · exact (value (by omega) (List.mem_singleton.1 found)).symm
  · simp only [List.mem_cons, List.not_mem_nil, or_false] at found
    rcases found with same | same <;> exact (large (by omega) (by omega) same).elim
  · simp only [List.mem_cons, List.not_mem_nil, or_false] at found
    rcases found with same | same | same <;> exact (large (by omega) (by omega) same).elim
  · simp only [List.mem_cons, List.not_mem_nil, or_false] at found
    rcases found with same | same | same | same <;> exact (large (by omega) (by omega) same).elim

theorem eq_of_mem_utf8EncodeChar {c d : Char} {b : UInt8} (found : b ∈ String.utf8EncodeChar c)
    (small : b.toNat < 128) (same : b.toNat = d.toNat) : c = d :=
  Char.toNat_inj.1 ((toNat_eq_of_mem_utf8EncodeChar found small).trans same)

theorem feed_not_mem_ofText {cs : List Char} (free : '\n' ∉ cs) :
    10 ∉ ofText (String.ofList cs) := by
  rw [ofText_ofList]
  intro found
  obtain ⟨c, among, byte⟩ := List.mem_flatMap.1 found
  exact free (eq_of_mem_utf8EncodeChar byte (by decide) (d := '\n') rfl ▸ among)

theorem getLast?_eq_return {cs : List Char} (h : (ofText (String.ofList cs)).getLast? = some 13) :
    cs.getLast? = some '\r' := by
  cases cs using List.reverseRecOn with
  | nil => cases h
  | append_singleton cs c =>
    rw [ofText_ofList, List.flatMap_append, List.flatMap_singleton, List.getLast?_append] at h
    obtain ⟨b, last⟩ := Option.ne_none_iff_exists'.1
      (mt List.getLast?_eq_none_iff.1 (String.utf8EncodeChar_ne_nil (c := c)))
    rw [last, Option.some_or] at h
    cases h
    rw [eq_of_mem_utf8EncodeChar (List.mem_of_getLast? last) (by decide) (d := '\r') rfl]
    exact List.getLast?_concat

theorem lines_of_not_mem {bytes : Bytes} (free : 10 ∉ bytes) (nonempty : bytes ≠ []) :
    lines bytes = [bytes] := by
  induction bytes with
  | nil => exact absurd rfl nonempty
  | cons b bytes ih =>
    obtain ⟨head, tail⟩ := List.ne_and_not_mem_of_not_mem_cons free
    rw [lines, if_neg (Ne.symm head)]
    cases bytes with
    | nil => rfl
    | cons c rest => rw [ih tail (List.cons_ne_nil c rest)]

theorem lines_append {bytes : Bytes} (free : 10 ∉ bytes) (rest : Bytes) :
    lines (bytes ++ 10 :: rest) = (bytes ++ [10]) :: lines rest := by
  induction bytes with
  | nil => rfl
  | cons b bytes ih =>
    obtain ⟨head, tail⟩ := List.ne_and_not_mem_of_not_mem_cons free
    rw [List.cons_append, lines, if_neg (Ne.symm head), ih tail]
    rfl

end Montage.Bytes
