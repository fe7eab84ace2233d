import Montage.Proofs.Except
import Montage.Proofs.Json.Number

/-! The numbers that are found in a text, whether the text is sound or not. Each of them fits 64 bits
or is finite, so whatever a decoder makes of them can be written again. -/
namespace Montage.Json

inductive Holds (n : Number) : Json → Prop where
  | number : Holds n (.number n)
  | item {items : List Json} {item : Json} (among : item ∈ items) (inside : Holds n item) :
      Holds n (.array items)
  | member {members : List (Json × Json)} {m : Json × Json} (among : m ∈ members)
      (inside : Holds n m.2) : Holds n (.object members)

def NumbersFit (j : Json) : Prop := ∀ n, Holds n j → n.IsWritable

theorem numbersFit_number {n : Number} (h : n.IsWritable) : NumbersFit (.number n) := by
  rintro _ ⟨⟩
  exact h

theorem numbersFit_null : NumbersFit .null := fun _ h => nomatch h

theorem numbersFit_bool (b : Bool) : NumbersFit (.bool b) := fun _ h => nomatch h

/-- A leaf for a faulty text holds no number. -/
theorem numbersFit_fault (f : Fault) : NumbersFit (.fault f) := fun _ h => nomatch h

theorem numbersFit_array {items : List Json} :
    NumbersFit (.array items) ↔ ∀ item ∈ items, NumbersFit item := by
  constructor
  · exact fun h item among n inside => h n (.item among inside)
  · intro h n found
    cases found with
    | item among inside => exact h _ among n inside

theorem numbersFit_object {members : List (Json × Json)} :
    NumbersFit (.object members) ↔ ∀ m ∈ members, NumbersFit m.2 := by
  constructor
  · exact fun h m among n inside => h n (.member among inside)
  · intro h n found
    cases found with
    | member among inside => exact h _ among n inside

theorem isWritable_integer {negative : Bool} {n : Nat}
    (fits : if negative then 0 < n ∧ n ≤ Nat.pow 2 63 else n < Nat.pow 2 64) :
    (Number.integer (if negative then -n else n)).IsWritable := by
  simp only [Number.IsWritable, Int.pow_eq, Nat.pow_eq, Int.reducePow, Nat.reducePow] at fits ⊢
  cases negative with
  | true =>
    rw [if_pos rfl] at fits ⊢
    omega
  | false =>
    rw [if_neg Bool.false_ne_true] at fits ⊢
    omega

theorem numbersFit_numberValue (r : Rounding) (negative : Bool) (whole : List Char)
    (fraction : Option (List Char)) (power : Option Int) :
    NumbersFit (numberValue r negative whole fraction power) := by
  unfold numberValue
  -- The bound of a whole number has a case of its own for each sign, which `split` would go into.
  refine iteInduction (fun fits => ?_) fun _ => iteInduction (fun finite => ?_) fun _ => ?_
  · exact numbersFit_number (isWritable_integer fits.2.2)
  · exact numbersFit_number finite
  · exact fun n h => nomatch h

theorem numbersFit_readNumber (r : Rounding) (cs : List Char) :
    NumbersFit (readNumber r cs).1 := by
  unfold readNumber
  split
  dsimp only
  split
  · rename_i found read
    simp only [bind_eq_ok_iff, pure, Except.pure, Except.ok.injEq] at read
    obtain ⟨⟨whole, behindWhole⟩, -, ⟨fraction, behindFraction⟩, -, ⟨power, behind⟩, -, rfl⟩ := read
    exact numbersFit_numberValue r _ whole fraction power
  · exact fun n h => nomatch h

theorem numbersFit_readString (cs : List Char) : NumbersFit (readString cs).1 := by
  unfold readString
  split
  · split <;> exact fun n h => nomatch h
  · dsimp only
    split <;> exact fun n h => nomatch h

theorem numbersFit_readLiteral {value : Json} (h : NumbersFit value) (expected cs : List Char) :
    NumbersFit (readLiteral value expected cs).1 := by
  fun_induction readLiteral value expected cs with
  | case1 => exact h
  | case2 => exact fun n h => nomatch h
  | case3 => assumption
  | case4 => exact fun n h => nomatch h

structure FitsWith (r : Rounding) (fuel : Nat) : Prop where
  value : ∀ cs, NumbersFit (readValue r fuel cs).1
  list : ∀ cs, NumbersFit (readList r fuel cs).1
  items : ∀ cs, ∀ item ∈ (readItems r fuel cs).1, NumbersFit item
  object : ∀ cs, NumbersFit (readObject r fuel cs).1
  members : ∀ cs, ∀ m ∈ (readMembers r fuel cs).1, NumbersFit m.2

theorem fitsWith_zero (r : Rounding) : FitsWith r 0 where
  value cs := by rw [readValue]; exact numbersFit_fault _
  list cs := by
    rw [readList]
    exact numbersFit_array.2 (List.forall_mem_singleton.2 (numbersFit_fault _))
  items cs := by
    rw [readItems]
    exact List.forall_mem_singleton.2 (numbersFit_fault _)
  object cs := by
    rw [readObject]
    exact numbersFit_object.2 (List.forall_mem_singleton.2 numbersFit_null)
  members cs := by
    rw [readMembers]
    exact List.forall_mem_singleton.2 numbersFit_null

namespace FitsWith

variable {r : Rounding} {fuel : Nat}

theorem readValue (h : FitsWith r fuel) (cs : List Char) :
    NumbersFit (readValue r (fuel + 1) cs).1 := by
  cases cs with
  | nil => rw [readValue.eq_def]; exact numbersFit_fault _
  | cons c cs =>
    rw [Json.readValue]
    split
    · exact numbersFit_readLiteral numbersFit_null _ _
    split
    · exact numbersFit_readLiteral (numbersFit_bool true) _ _
    split
    · exact numbersFit_readLiteral (numbersFit_bool false) _ _
    split
    · exact numbersFit_readString cs
    split
    · exact h.list _
    split
    · exact h.object _
    split
    · exact numbersFit_readNumber r _
    · exact numbersFit_fault _

theorem readList (h : FitsWith r fuel) (cs : List Char) : NumbersFit (readList r (fuel + 1) cs).1 := by
  unfold Json.readList
  split
  · exact numbersFit_array.2 (List.forall_mem_singleton.2 (numbersFit_fault _))
  · exact numbersFit_array.2 (List.forall_mem_singleton.2 (numbersFit_fault _))
  · exact numbersFit_array.2 fun item among => nomatch among
  · rename_i same _ _
    cases same
    exact numbersFit_array.2 (h.items _)

/-- Behind an item there are further ones, or a leaf that says why there are none. -/
theorem readItems (h : FitsWith r fuel) (cs : List Char) :
    ∀ item ∈ (readItems r (fuel + 1) cs).1, NumbersFit item := by
  have item := h.value cs
  rw [Json.readItems]
  split
  · rename_i found read
    rw [read] at item
    exact List.forall_mem_singleton.2 item
  · rename_i found rest read
    rw [read] at item
    have faulty : ∀ f : Fault, ∀ j ∈ [found, .fault f], NumbersFit j := fun f =>
      List.forall_mem_cons.2 ⟨item, List.forall_mem_singleton.2 (numbersFit_fault f)⟩
    split
    · exact faulty _
    · exact List.forall_mem_singleton.2 item
    · split
      · exact faulty _
      · exact List.forall_mem_cons.2 ⟨item, h.items _⟩
    · exact faulty _

theorem readObject (h : FitsWith r fuel) (cs : List Char) :
    NumbersFit (readObject r (fuel + 1) cs).1 := by
  unfold Json.readObject
  split
  · exact numbersFit_object.2 (List.forall_mem_singleton.2 numbersFit_null)
  · exact numbersFit_object.2 (List.forall_mem_singleton.2 numbersFit_null)
  · exact numbersFit_object.2 fun item among => nomatch among
  · rename_i same _ _
    cases same
    exact numbersFit_object.2 (h.members _)

theorem readMembers (h : FitsWith r fuel) (cs : List Char) :
    ∀ m ∈ (readMembers r (fuel + 1) cs).1, NumbersFit m.2 := by
  unfold Json.readMembers
  split
  · exact List.forall_mem_singleton.2 numbersFit_null
  · exact List.forall_mem_singleton.2 numbersFit_null
  · rename_i same
    cases same
    split
    · exact List.forall_mem_singleton.2 numbersFit_null
    split
    · exact List.forall_mem_singleton.2 (numbersFit_fault _)
    · rename_i behind _
      have value := h.value (skipSpace behind)
      split
      · rename_i read
        rw [read] at value
        exact List.forall_mem_singleton.2 value
      · rename_i found _ read
        rw [read] at value
        have faulty : ∀ key leaf : Json, ∀ m ∈ [(key, found), (leaf, .null)], NumbersFit m.2 :=
          fun _ _ => List.forall_mem_cons.2 ⟨value, List.forall_mem_singleton.2 numbersFit_null⟩
        split
        · exact faulty _ _
        · exact List.forall_mem_singleton.2 value
        · split
          · exact faulty _ _
          · exact List.forall_mem_cons.2 ⟨value, h.members _⟩
        · exact faulty _ _
    · exact List.forall_mem_singleton.2 (numbersFit_fault _)
  · exact List.forall_mem_singleton.2 numbersFit_null

theorem succ (h : FitsWith r fuel) : FitsWith r (fuel + 1) :=
  ⟨h.readValue, h.readList, h.readItems, h.readObject, h.readMembers⟩

end FitsWith

theorem fitsWith (r : Rounding) (fuel : Nat) : FitsWith r fuel := by
  induction fuel with
  | zero => exact fitsWith_zero r
  | succ fuel ih => exact ih.succ

theorem numbersFit_readChars (r : Rounding) (cs : List Char) : NumbersFit (readChars r cs).root := by
  have value := (fitsWith r (3 * (cs.length + 1))).value (skipSpace cs)
  rw [readChars]
  split
  · rename_i found
    rwa [found] at value
  · rename_i found
    rwa [found] at value

end Montage.Json
