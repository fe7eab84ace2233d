import Montage.Engine.Basic

/-! When things happen around an execution: when the cancellation signal is given, when the engine
ends, and when either is looked at. Times are in milliseconds. -/
namespace Montage

/-- The side that can turn the signal on. It does so at most once and may leave without. -/
structure Sender where
  asks : Option Nat := none
  leaves : Option Nat := none
  in_order : ∀ asked ∈ asks, ∀ left ∈ leaves, asked ≤ left := by simp

namespace Sender

def isOn (s : Sender) (time : Nat) : Bool := s.asks.any (· ≤ time)

def isGone (s : Sender) (time : Nat) : Bool := s.leaves.any (· ≤ time)

/-- How a wait for the signal has ended, if it has. It fails when nobody is left to wait for. -/
def wait? (s : Sender) (time : Nat) : Option (Except Unit Unit) :=
  if s.isOn time then some (.ok ()) else if s.isGone time then some (.error ()) else none

/-- Whether the signal ends the waiting for an engine. A wait that has failed never does. -/
def cancels (s : Sender) (time : Nat) : Bool :=
  match s.wait? time with
  | some (.ok ()) => true
  | some (.error ()) | none => false

theorem isOn_of_le {s : Sender} {time later : Nat} (h : time ≤ later) (on : s.isOn time = true) :
    s.isOn later = true := by
  rw [isOn, Option.any_eq_true] at on ⊢
  obtain ⟨asked, asks, before⟩ := on
  refine ⟨asked, asks, ?_⟩
  rw [decide_eq_true_eq] at before ⊢
  omega

end Sender

structure Schedule where
  sender : Sender := {}
  /-- When an execution begins, and when its run does, from where the time limit counts. -/
  entry : Nat := 0
  start : Nat := entry
  /-- When the exit, the signal and the deadline are looked at together. -/
  looks : List Nat
  /-- When the signal is looked at for the last time. -/
  check : Nat
  exit : Option (Nat × Option Int) := none
  choice : Nat := 0
  in_order : (entry :: start :: looks ++ [check]).Pairwise (· ≤ ·) := by decide

namespace Schedule

def watch (s : Schedule) : Watch where
  onEntry := s.sender.isOn s.entry
  beforeStart := s.sender.isOn s.start
  afterExit := s.sender.isOn s.check
  start_of_entry := by
    have order := s.in_order
    simp only [List.cons_append, List.pairwise_cons, List.mem_cons] at order
    exact Sender.isOn_of_le (order.1 _ (.inl rfl))
  exit_of_start := by
    have order := s.in_order
    simp only [List.cons_append, List.pairwise_cons, List.mem_append] at order
    exact Sender.isOn_of_le (order.2.1 _ (.inr (List.mem_singleton_self _)))

def moment (s : Schedule) (time : Nat) : Moment where
  exit := (s.exit.filter (·.1 ≤ time)).map (·.2)
  isCancelled := s.sender.cancels time
  seconds := (time - s.start) / 1000

/-- A course whose end is noticed as a schedule has it. -/
def Shows (s : Schedule) (timeout : Option Nat) (course : Course) : Prop :=
  Completion.first? timeout s.choice (s.looks.map s.moment) = some course.completion

end Schedule
end Montage
