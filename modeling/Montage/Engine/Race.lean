/-! Waiting for an engine. Its exit, the cancellation and the deadline are waited for together. The
first to come ends the waiting; of several that are there at the same moment any may be noticed. -/
namespace Montage

inductive Completion where
  /-- An engine that dies by a signal has no code. -/
  | exited (code : Option Int)
  | cancelled
  | deadline (seconds : Nat)
deriving DecidableEq

structure Moment where
  /-- The exit of an engine that has ended. -/
  exit : Option (Option Int) := none
  isCancelled : Bool := false
  seconds : Nat := 0

/-- The completions that are there at a moment. Without a time limit there is no deadline. -/
def Moment.completions (timeout : Option Nat) (m : Moment) : List Completion :=
  (m.exit.map .exited).toList ++ (if m.isCancelled then [.cancelled] else []) ++
    ((timeout.filter (· ≤ m.seconds)).map .deadline).toList

/-- The completion that is noticed, none if the waiting never ends. The choice tells which of
several it is. -/
def Completion.first? (timeout : Option Nat) (choice : Nat) : List Moment → Option Completion
  | [] => none
  | m :: rest =>
    match m.completions timeout with
    | [] => first? timeout choice rest
    | c :: others => (c :: others)[choice % (others.length + 1)]?

end Montage
