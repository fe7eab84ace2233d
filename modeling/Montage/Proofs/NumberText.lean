import Montage.Proofs.Binary64.Language

/-! The characters of texts that are read as numbers: digits, points, signs and the mark of an
exponent, apart from the words for what is no finite number. -/
namespace Montage

def IsNumberChar (c : Char) : Prop := c.isDigit = true ∨ c ∈ ['.', 'e', 'E', '+', '-']

/-- A sign in front adds no other character than a sign. -/
theorem IsSigned.isNumberChar {negative : Bool} {body cs : List Char} (h : IsSigned body negative cs)
    (all : ∀ c ∈ body, IsNumberChar c) : ∀ c ∈ cs, IsNumberChar c := by
  cases h with
  | bare => exact all
  | plus => exact List.forall_mem_cons.2 ⟨by simp [IsNumberChar], all⟩
  | minus => exact List.forall_mem_cons.2 ⟨by simp [IsNumberChar], all⟩

namespace Decimal

theorem IsPower.isNumberChar {cs : List Char} {x : Int} (h : IsPower cs x) :
    ∀ c ∈ cs, IsNumberChar c := by
  obtain ⟨negative, ds, sign, digits, -⟩ := h
  exact sign.isNumberChar fun c among => .inl (digits.2 c among)

theorem IsMantissa.isNumberChar {cs ds : List Char} {places : Nat} (h : IsMantissa cs ds places) :
    ∀ c ∈ cs, IsNumberChar c := by
  cases h with
  | whole digits => exact fun c among => .inl (digits.2 c among)
  | point digits =>
    obtain ⟨before, behind⟩ := List.forall_mem_append.1 digits.2
    refine List.forall_mem_append.2 ⟨fun c among => .inl (before c among), ?_⟩
    exact List.forall_mem_cons.2 ⟨by simp [IsNumberChar], fun c among => .inl (behind c among)⟩

theorem IsDecimal.isNumberChar {cs : List Char} {d : Decimal} (h : IsDecimal cs d) :
    ∀ c ∈ cs, IsNumberChar c := by
  cases h with
  | plain mantissa => exact mantissa.isNumberChar
  | scaled mantissa mark power =>
    refine List.forall_mem_append.2 ⟨mantissa.isNumberChar, ?_⟩
    refine List.forall_mem_cons.2 ⟨?_, power.isNumberChar⟩
    rcases mark with rfl | rfl <;> simp [IsNumberChar]

end Decimal

/-- What is read from another text is infinite or not a number. -/
theorem Binary64.isNumberChar_of_readChars? {cs : List Char} {x : Binary64}
    (h : readChars? cs = some x) (finite : x.isFinite = true) : ∀ c ∈ cs, IsNumberChar c := by
  obtain ⟨negative, body, sign, magnitude⟩ := readChars?_eq_some_iff.1 h
  apply sign.isNumberChar
  cases magnitude with
  | infinite => cases finite
  | nan => cases finite
  | decimal decimal => exact decimal.isNumberChar

end Montage
