import Montage.Binary64.Decimal
import Montage.Text.Blank

/-! The progress of a run, as the engine reports it: lines `key=value`, the last one of each block with
the key `progress`. -/
namespace Montage

structure Progress where
  frame : Nat := 0
  fps : Binary64 := 0
  /-- How far the output has come, in milliseconds. -/
  outTime : Int := 0
  speed : Binary64 := 0
  isComplete : Bool := false
deriving DecidableEq

namespace Progress

def percentage (p : Progress) (total : Binary64) : Binary64 :=
  if total.le 0 || !total.isFinite then 0
  else
    let done := Binary64.ofInt (max p.outTime 0) / 1000
    (done / total * 100).min 100

/-- The seconds that remain, once there is a speed to judge by. -/
def remaining? (p : Progress) (total : Binary64) : Option Binary64 :=
  if p.speed.le 0 || p.outTime ≤ 0 then none
  else
    let left := total - Binary64.ofInt p.outTime / 1000
    if left.le 0 then some 0 else some (left / p.speed)

def entry? (line : String) : Option (String × List Char) :=
  (Text.splitFirst? '=' (Text.trim line.toList)).map fun (key, value) => (String.ofList key, value)

/-- A speed is a number with an `x` behind it. -/
def readSpeed? (cs : List Char) : Option Binary64 :=
  match (Text.trim cs).reverse with
  | 'x' :: rest => Binary64.readChars? rest.reverse
  | _ => none

/-- Sets the field of a key. Both times are in microseconds, whatever their names say. A value that
cannot be read changes nothing. -/
def set (p : Progress) (key : String) (value : List Char) : Progress :=
  if key = "out_time_us" ∨ key = "out_time_ms" then
    match Numeral.readSigned? value with
    | some us => { p with outTime := us.tdiv 1000 }
    | none => p
  else if key = "frame" then
    match Numeral.readUnsigned? value with
    | some frame => { p with frame }
    | none => p
  else if key = "fps" then
    match Binary64.readChars? value with
    | some fps => { p with fps }
    | none => p
  else if key = "speed" then
    match readSpeed? value with
    | some speed => { p with speed }
    | none => p
  else if key = "progress" then { p with isComplete := value = "end".toList }
  else p

def read (p : Progress) (line : String) : Progress :=
  match entry? line with
  | some (key, value) => p.set key value
  | none => p

def endsBlock (line : String) : Bool :=
  match entry? line with
  | some (key, _) => key = "progress"
  | none => false

/-- The state after a line, if that line ends a block. -/
def snapshot? (p : Progress) (line : String) : Option Progress :=
  if endsBlock line then some (p.read line) else none

def isKeyChar (c : Char) : Bool := c.isAlphanum || c = '_'

/-- Whether a line is one of progress rather than another message of the engine. -/
def isLine (line : String) : Bool :=
  match Text.splitFirst? '=' line.toList with
  | some (key, _) => key ≠ [] && key.all isKeyChar
  | none => false

end Progress
end Montage
