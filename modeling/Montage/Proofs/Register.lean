import Mathlib.Data.List.Induction

/-! Fields of a state that events set. An event gives a field a new value or leaves it as it is, so
after many events a field has the value that it was given last. Events are told apart by the fields
they set: where the fields tell everything about a state, two events that set different fields may
change places. -/
namespace Montage

variable {σ ε : Type} {step : σ → ε → σ}

/-- A field of a state, with the value that an event gives it, if it gives one. -/
structure Register (step : σ → ε → σ) where
  Value : Type
  get : σ → Value
  given? : ε → Option Value
  get_step : ∀ s e, get (step s e) = (given? e).getD (get s)

namespace Register

theorem get_foldl (r : Register step) (events : List ε) (s : σ) :
    r.get (events.foldl step s) = ((events.filterMap r.given?).getLast?).getD (r.get s) := by
  induction events using List.reverseRecOn with
  | nil => rfl
  | append_singleton events e ih =>
    rw [List.foldl_append, List.foldl_cons, List.foldl_nil, r.get_step, ih, List.filterMap_append]
    cases given : r.given? e with
    | none => simp [given]
    | some value => simp [given]

def Determine (fields : List (Register step)) : Prop :=
  ∀ s t, (∀ r ∈ fields, r.get s = r.get t) → s = t

section
variable {fields : List (Register step)}

theorem step_eq_self (all : Determine fields) {e : ε} (h : ∀ r ∈ fields, r.given? e = none) (s : σ) :
    step s e = s := by
  refine all _ _ fun r among => ?_
  rw [r.get_step, h r among, Option.getD_none]

theorem step_comm (all : Determine fields) {a b : ε}
    (apart : ∀ r ∈ fields, r.given? a = none ∨ r.given? b = none) (s : σ) :
    step (step s a) b = step (step s b) a := by
  refine all _ _ fun r among => ?_
  rw [r.get_step, r.get_step, r.get_step, r.get_step]
  rcases apart r among with silent | silent <;> simp [silent]

/-- An event that gives each field what the second of two gives it, or else the first, does the work
of both. -/
theorem step_step (all : Determine fields) {a b both : ε}
    (h : ∀ r ∈ fields, r.given? both = (r.given? b).or (r.given? a)) (s : σ) :
    step (step s a) b = step s both := by
  refine all _ _ fun r among => ?_
  rw [r.get_step, r.get_step, r.get_step, h r among]
  cases r.given? b <;> rfl

theorem step_self (all : Determine fields) (e : ε) (s : σ) : step (step s e) e = step s e :=
  step_step all (fun _ _ => (Option.or_self).symm) s

end

end Register
end Montage
