import Montage.Binary64.Decimal
import Montage.Text.Blank

/-! Times as text. A time is a number of seconds; users type it as a clock (`00:01:30.5`), the engine
wants it as a plain decimal, and a report shows it in hours, minutes and seconds. -/
namespace Montage

inductive TimestampError where
  | empty
  | negative
  | invalidValue (component : String) (value : String)
  | invalidFormat (text : String)
  | exceedsMaximum (seconds : Binary64)
deriving DecidableEq

def TimestampError.message : TimestampError → String
  | empty => "Timestamp cannot be empty"
  | negative => "Timestamp cannot be negative"
  | invalidValue component value => "Invalid " ++ component ++ " value: " ++ value
  | invalidFormat text =>
    "Invalid timestamp format '" ++ text ++ "'. Use HH:MM:SS, MM:SS or SS (with optional .mmm)"
  | exceedsMaximum seconds =>
    "Timestamp exceeds maximum allowed duration (" ++ (seconds / 3600).text ++ " hours)"

namespace Timestamp

/-- The longest time that a clock may show, in seconds. -/
def maximum : Binary64 := 86400

/-- Plain decimal seconds. Both zeros are written alike. -/
def formatSeconds (x : Binary64) : String := if x.isZero then "0" else x.text

def componentNames : List String := ["hours", "minutes", "seconds"]

def readComponent (name : String) (cs : List Char) : Except TimestampError Binary64 :=
  match Binary64.readChars? cs with
  | some x =>
    if !x.isFinite then .error (.invalidValue name (String.ofList cs))
    else if x.lt 0 then .error .negative
    else .ok x
  | none => .error (.invalidValue name (String.ofList cs))

/-- Each component counts sixty of the next one. -/
def readComponents (total : Binary64) : List (String × List Char) → Except TimestampError Binary64
  | [] => .ok total
  | (name, cs) :: rest => do
    let x ← readComponent name cs
    readComponents (total * 60 + x) rest

/-- Reads seconds, minutes and seconds, or hours, minutes and seconds. -/
def parseClock (s : String) : Except TimestampError Binary64 :=
  let cs := Text.trim s.toList
  let parts := Text.splitOn ':' cs
  if cs = [] then .error .empty
  else if componentNames.length < parts.length then .error (.invalidFormat (String.ofList cs))
  else do
    let names := componentNames.drop (componentNames.length - parts.length)
    let total ← readComponents 0 (names.zip parts)
    if maximum.lt total then .error (.exceedsMaximum maximum) else .ok total

/-- The parts of an elapsed time that are shown: those that are not zero, or the seconds alone. -/
def elapsedParts (seconds : Nat) : List String :=
  let hours := seconds / 3600
  let minutes := seconds % 3600 / 60
  let rest := seconds % 60
  let shown := (if 0 < hours then [Numeral.text hours ++ "hr"] else []) ++
    (if 0 < minutes then [Numeral.text minutes ++ " min"] else [])
  if 0 < rest ∨ shown = [] then shown ++ [Numeral.text rest ++ " sec"] else shown

def formatElapsed (x : Binary64) : String := " ".intercalate (elapsedParts x.roundToWhole)

end Timestamp
end Montage
