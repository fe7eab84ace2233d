import Montage.Proofs.Except

/-! Checks that are done one after another, and the first of them that fails. Several of them may fail at
once, so the order of a list of checks is part of what it says. -/
namespace Montage

variable {ε : Type}

def require (condition : Prop) [Decidable condition] (complaint : ε) : Except ε Unit :=
  if condition then .ok () else .error complaint

def inOrder : List (Except ε Unit) → Except ε Unit
  | [] => .ok ()
  | check :: rest => do
    check
    inOrder rest

def FailsFirst (checks : List (Except ε Unit)) (complaint : ε) : Prop :=
  ∃ before after, checks = before ++ .error complaint :: after ∧ ∀ check ∈ before, check = .ok ()

theorem require_eq_ok_iff {condition : Prop} [Decidable condition] {complaint : ε} :
    require condition complaint = .ok () ↔ condition := by
  unfold require
  split <;> simp_all

theorem require_eq_error_iff {condition : Prop} [Decidable condition] {complaint err : ε} :
    require condition complaint = .error err ↔ ¬ condition ∧ err = complaint := by
  unfold require
  split <;> simp_all [eq_comm]

theorem inOrder_eq_ok_iff {checks : List (Except ε Unit)} :
    inOrder checks = .ok () ↔ ∀ check ∈ checks, check = .ok () := by
  induction checks with
  | nil => simp [inOrder]
  | cons check rest ih => rw [inOrder, check_bind_eq_ok_iff, ih, List.forall_mem_cons]

theorem inOrder_require_cons (condition : Prop) [Decidable condition] (complaint : ε)
    (rest : List (Except ε Unit)) : inOrder (require condition complaint :: rest) =
      if condition then inOrder rest else .error complaint := by
  rw [inOrder, require]
  split <;> rfl

theorem not_failsFirst_nil {complaint : ε} : ¬ FailsFirst [] complaint := by
  rintro ⟨before, after, parts, -⟩
  cases before <;> cases parts

theorem failsFirst_cons_iff {check : Except ε Unit} {rest : List (Except ε Unit)} {complaint : ε} :
    FailsFirst (check :: rest) complaint ↔
      check = .error complaint ∨ check = .ok () ∧ FailsFirst rest complaint := by
  constructor
  · rintro ⟨before, after, parts, passed⟩
    cases before with
    | nil =>
      cases parts
      exact .inl rfl
    | cons first before =>
      cases parts
      rw [List.forall_mem_cons] at passed
      exact .inr ⟨passed.1, before, after, rfl, passed.2⟩
  · rintro (rfl | ⟨rfl, before, after, rfl, passed⟩)
    · exact ⟨[], rest, rfl, fun _ found => absurd found List.not_mem_nil⟩
    · exact ⟨.ok () :: before, after, rfl, List.forall_mem_cons.2 ⟨rfl, passed⟩⟩

theorem inOrder_eq_error_iff {checks : List (Except ε Unit)} {complaint : ε} :
    inOrder checks = .error complaint ↔ FailsFirst checks complaint := by
  induction checks with
  | nil => simp [inOrder, not_failsFirst_nil]
  | cons check rest ih =>
    rw [inOrder, check_bind_eq_error_iff, failsFirst_cons_iff, ih]

theorem failsFirst_map_iff {α : Type} {check : α → Except ε Unit} {xs : List α} {complaint : ε} :
    FailsFirst (xs.map check) complaint ↔ ∃ before x after, xs = before ++ x :: after ∧
      (∀ y ∈ before, check y = .ok ()) ∧ check x = .error complaint := by
  constructor
  · rintro ⟨passing, failing, parts, passed⟩
    obtain ⟨before, rest, rfl, rfl, others⟩ := List.map_eq_append_iff.1 parts
    obtain ⟨x, after, rfl, failed, -⟩ := List.map_eq_cons_iff.1 others
    exact ⟨before, x, after, rfl, List.forall_mem_map.1 passed, failed⟩
  · rintro ⟨before, x, after, rfl, passed, failed⟩
    refine ⟨before.map check, after.map check, ?_, List.forall_mem_map.2 passed⟩
    rw [List.map_append, List.map_cons, failed]

theorem inOrder_append (checks others : List (Except ε Unit)) :
    inOrder (checks ++ others) = (inOrder checks >>= fun _ => inOrder others) := by
  induction checks with
  | nil => rfl
  | cons check rest ih =>
    cases check with
    | error err => rfl
    | ok _ => exact ih

theorem failsFirst_append_iff {checks others : List (Except ε Unit)} {complaint : ε} :
    FailsFirst (checks ++ others) complaint ↔ FailsFirst checks complaint ∨
      (∀ check ∈ checks, check = .ok ()) ∧ FailsFirst others complaint := by
  rw [← inOrder_eq_error_iff, inOrder_append, check_bind_eq_error_iff, inOrder_eq_error_iff,
    inOrder_eq_error_iff, inOrder_eq_ok_iff]

end Montage
