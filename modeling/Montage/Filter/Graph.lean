import Montage.Filter.Pad
import Montage.Overlay.Basic

/-! Filter graphs: statements that read and write pads, and their text. -/
namespace Montage.Filter

/-- A visibility window on the clock of the untrimmed source. -/
structure TimeGate where
  start : Binary64
  stop : Binary64
deriving DecidableEq

open Timestamp (formatSeconds)

def TimeGate.text (g : TimeGate) : String :=
  "between(t," ++ formatSeconds g.start ++ "," ++ formatSeconds g.stop ++ ")"

inductive Statement where
  | scale (input output : Pad) (size : Size)
  /-- Draws a scaled image onto the base. -/
  | overlay (base image : Pad) (position : Position) (gate : TimeGate) (output : Option Pad)
  /-- Draws a text onto the base. The text is already escaped. -/
  | drawText (base : Pad) (fontFile text color : String) (fontSize : Nat) (position : Position)
      (gate : TimeGate) (output : Option Pad)
deriving DecidableEq

namespace Statement

/-- The pad whose video the statement changes. -/
def inputPad : Statement → Pad
  | scale input .. => input
  | overlay base .. => base
  | drawText base .. => base

def outputPad : Statement → Option Pad
  | scale _ output _ => some output
  | overlay _ _ _ _ output => output
  | drawText _ _ _ _ _ _ _ output => output

def inputPads : Statement → List Pad
  | scale input .. => [input]
  | overlay base image .. => [base, image]
  | drawText base .. => [base]

def filter : Statement → String
  | scale _ _ size => "scale=" ++ formatSeconds size.width ++ ":" ++ formatSeconds size.height
  | overlay _ _ position gate _ =>
    "overlay=x=" ++ formatSeconds position.x ++ ":y=" ++ formatSeconds position.y ++
      ":enable='" ++ gate.text ++ "'"
  | drawText _ fontFile text color fontSize position gate _ =>
    "drawtext=fontfile=" ++ fontFile ++ ":text=" ++ text ++ ":fontcolor=" ++ color ++
      ":fontsize=" ++ Numeral.text fontSize ++ ":x=" ++ formatSeconds position.x ++
      ":y=" ++ formatSeconds position.y ++ ":enable='" ++ gate.text ++ "'"

def text (s : Statement) : String :=
  String.join (s.inputPads.map Pad.bracketed) ++ s.filter ++
    String.join (s.outputPad.toList.map Pad.bracketed)

end Statement

structure Graph where
  statements : List Statement
deriving DecidableEq

namespace Graph

/-- A graph without statements is left out of a command. -/
def isEmpty (g : Graph) : Bool := g.statements.isEmpty

def text (g : Graph) : String := ";".intercalate (g.statements.map Statement.text)

end Graph
end Montage.Filter
