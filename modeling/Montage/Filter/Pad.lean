import Montage.Text.Numeral

/-! The pads that join the stages of a filter graph. Each composition step draws onto the result of the
step before it, the first onto the source, and names its own result by its place; the result of the
last step is the finished video and has no name. -/
namespace Montage.Filter

inductive Pad where
  /-- The video of the source. -/
  | source
  /-- The video of the n-th further input. -/
  | input (n : Nat)
  /-- The n-th image after scaling. -/
  | scaled (n : Nat)
  /-- The result of the n-th step. -/
  | composite (n : Nat)
deriving DecidableEq, Repr

namespace Pad

def name : Pad → String
  | source => "0:v"
  | input n => Numeral.text n ++ ":v"
  | scaled n => "img" ++ Numeral.text n
  | composite n => "tmp" ++ Numeral.text n

def bracketed (p : Pad) : String := "[" ++ p.name ++ "]"

end Pad

/-- What a step draws. An image is scaled first. -/
inductive StepKind where
  | image (input scaled : Pad)
  | text
deriving DecidableEq, Repr

structure Step where
  kind : StepKind
  base : Pad
  output : Option Pad
deriving DecidableEq, Repr

/-- The steps from the one with the given index on, of `total` steps altogether. -/
def chainSteps (total index : Nat) (base : Pad) : List StepKind → List Step
  | [] => []
  | kind :: kinds =>
    let output := if index + 1 < total then some (Pad.composite (index + 1)) else none
    ⟨kind, base, output⟩ :: chainSteps total (index + 1) (output.getD base) kinds

/-- Images are drawn first, numbered from one; texts are drawn over them. -/
def stepKinds (images texts : Nat) : List StepKind :=
  (List.range' 1 images).map (fun n => .image (.input n) (.scaled n)) ++ List.replicate texts .text

def planSteps (images texts : Nat) : List Step :=
  chainSteps (images + texts) 0 .source (stepKinds images texts)

end Montage.Filter
