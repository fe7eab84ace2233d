import Mathlib.Data.List.Forall2

/-! Opening checks that are done one after another. -/
namespace Montage

variable {α β ε δ : Type}

theorem bind_eq_ok_iff {x : Except ε α} {f : α → Except ε β} {b : β} :
    (x >>= f) = .ok b ↔ ∃ a, x = .ok a ∧ f a = .ok b := by
  cases x <;> simp [bind, Except.bind]

theorem check_bind_eq_ok_iff {x : Except ε Unit} {f : Unit → Except ε β} {b : β} :
    (x >>= f) = .ok b ↔ x = .ok () ∧ f () = .ok b := by
  cases x <;> simp [bind, Except.bind]

theorem mapError_eq_ok_iff {x : Except ε α} {f : ε → δ} {a : α} :
    x.mapError f = .ok a ↔ x = .ok a := by
  cases x <;> simp [Except.mapError]

theorem bind_eq_error_iff {x : Except ε α} {f : α → Except ε β} {e : ε} :
    (x >>= f) = .error e ↔ x = .error e ∨ ∃ a, x = .ok a ∧ f a = .error e := by
  cases x <;> simp [bind, Except.bind]

theorem check_bind_eq_error_iff {x : Except ε Unit} {f : Unit → Except ε β} {e : ε} :
    (x >>= f) = .error e ↔ x = .error e ∨ x = .ok () ∧ f () = .error e := by
  cases x <;> simp [bind, Except.bind]

theorem mapError_eq_error_iff {x : Except ε α} {f : ε → δ} {d : δ} :
    x.mapError f = .error d ↔ ∃ e, x = .error e ∧ f e = d := by
  cases x <;> simp [Except.mapError]

theorem map_eq_ok_iff {x : Except ε α} {f : α → β} {b : β} :
    x.map f = .ok b ↔ ∃ a, x = .ok a ∧ f a = b := by
  cases x <;> simp [Except.map]

theorem map_eq_error_iff {x : Except ε α} {f : α → β} {e : ε} :
    x.map f = .error e ↔ x = .error e := by
  cases x <;> simp [Except.map]

/-- A list is gone through successfully just if each of its elements is. -/
theorem eachOk_iff {f : List α → Except ε (List β)} {g : α → Except ε β} (nil : f [] = .ok [])
    (cons : ∀ x xs, f (x :: xs) = (do let y ← g x; return y :: (← f xs))) {xs : List α}
    {ys : List β} : f xs = .ok ys ↔ List.Forall₂ (fun x y => g x = .ok y) xs ys := by
  induction xs generalizing ys with
  | nil => cases ys <;> simp [nil]
  | cons x xs ih =>
    simp only [cons, bind_eq_ok_iff, List.forall₂_cons_left_iff]
    constructor
    · rintro ⟨y, first, rest, others, whole⟩
      cases whole
      exact ⟨y, rest, first, ih.1 others, rfl⟩
    · rintro ⟨y, rest, first, others, rfl⟩
      exact ⟨y, first, rest, ih.2 others, rfl⟩

/-- Going through a list fails at its first element that fails, and as this one does. -/
theorem each_eq_error_iff {f : List α → Except ε (List β)} {g : α → Except ε β}
    (nil : f [] = .ok []) (cons : ∀ x xs, f (x :: xs) = (do let y ← g x; return y :: (← f xs)))
    {xs : List α} {e : ε} : f xs = .error e ↔ ∃ before x after, xs = before ++ x :: after ∧
      (∀ y ∈ before, ∃ b, g y = .ok b) ∧ g x = .error e := by
  induction xs with
  | nil => simp [nil]
  | cons first rest ih =>
    rw [cons, bind_eq_error_iff]
    constructor
    · rintro (failed | ⟨y, passed, others⟩)
      · exact ⟨[], first, rest, rfl, fun _ found => absurd found List.not_mem_nil, failed⟩
      · rcases bind_eq_error_iff.1 others with failed | ⟨_, -, done⟩
        · obtain ⟨before, x, after, rfl, good, failed⟩ := ih.1 failed
          exact ⟨first :: before, x, after, rfl, List.forall_mem_cons.2 ⟨⟨y, passed⟩, good⟩, failed⟩
        · cases done
    · rintro ⟨before, x, after, parts, good, failed⟩
      cases before with
      | nil =>
        cases parts
        exact .inl failed
      | cons _ before =>
        cases parts
        obtain ⟨⟨y, passed⟩, good⟩ := List.forall_mem_cons.1 good
        have others := ih.2 ⟨before, x, after, rfl, good, failed⟩
        exact .inr ⟨y, passed, bind_eq_error_iff.2 (.inl others)⟩

theorem exists_forall₂ {R : α → β → Prop} {xs : List α} (h : ∀ x ∈ xs, ∃ y, R x y) :
    ∃ ys, List.Forall₂ R xs ys := by
  induction xs with
  | nil => exact ⟨[], .nil⟩
  | cons x xs ih =>
    rw [List.forall_mem_cons] at h
    obtain ⟨⟨y, head⟩, others⟩ := h
    obtain ⟨ys, tail⟩ := ih others
    exact ⟨y :: ys, .cons head tail⟩

theorem exists_getElem?_of_forall₂ {R : α → β → Prop} {xs : List α} {ys : List β}
    (h : List.Forall₂ R xs ys) {k : Nat} {x : α} (found : xs[k]? = some x) :
    ∃ y, ys[k]? = some y ∧ R x y := by
  induction h generalizing k with
  | nil => cases found
  | cons head tail ih =>
    cases k with
    | zero =>
      cases found
      exact ⟨_, rfl, head⟩
    | succ k => exact ih found

theorem exists_of_forall₂_of_mem {R : α → β → Prop} {xs : List α} {ys : List β}
    (h : List.Forall₂ R xs ys) {x : α} (among : x ∈ xs) : ∃ y ∈ ys, R x y := by
  obtain ⟨k, found⟩ := List.getElem?_of_mem among
  obtain ⟨y, paired, related⟩ := exists_getElem?_of_forall₂ h found
  exact ⟨y, List.mem_of_getElem? paired, related⟩

theorem forall₂_of_getElem? {R : α → β → Prop} {xs : List α} {ys : List β}
    (length : xs.length = ys.length)
    (h : ∀ (k : Nat) x y, xs[k]? = some x → ys[k]? = some y → R x y) : List.Forall₂ R xs ys := by
  refine List.forall₂_iff_get.2 ⟨length, fun k hx hy => h k _ _ ?_ ?_⟩
  · exact List.getElem?_eq_getElem hx
  · exact List.getElem?_eq_getElem hy

theorem exists_eq_ok_of_isSome {x : Except ε α} (h : x.toOption.isSome = true) :
    ∃ a, x = .ok a := by
  cases x with
  | error e => cases h
  | ok a => exact ⟨a, rfl⟩

end Montage
