import Montage.Bytes
import Montage.Engine.Progress

/-! What the engine reports while it runs, line by line: its progress, and messages for the user. -/
namespace Montage.Report

/-- A line without its end, which may be a carriage return and a line feed. -/
def withoutEnd (line : Bytes) : Bytes :=
  match line.reverse with
  | 10 :: 13 :: rest | 10 :: rest => rest.reverse
  | _ => line

/-- The lines up to the first that is no text. -/
def textLines : List Bytes → List String
  | [] => []
  | line :: rest =>
    match (withoutEnd line).text? with
    | some text => text :: textLines rest
    | none => []

def lines (bytes : Bytes) : List String := textLines bytes.lines

/-- How many messages are kept for the report of a failure. -/
def kept : Nat := 20

/-- A message that finds no room pushes the oldest one out. -/
def keep (tail : List String) (line : String) : List String :=
  (if tail.length = kept then tail.tail else tail) ++ [line]

/-- What has been made of a report so far. -/
structure Account where
  progress : Progress := {}
  /-- The states at the ends of the blocks. -/
  snapshots : List Progress := []
  /-- The latest messages. -/
  tail : List String := []

namespace Account

/-- Progress lines are read, all others are messages. Blank lines are dropped. -/
def hear (a : Account) (line : String) : Account :=
  if Progress.isLine line then
    { a with
      progress := a.progress.read line
      snapshots := a.snapshots ++ (a.progress.snapshot? line).toList }
  else if Text.trim line.toList ≠ [] then { a with tail := keep a.tail line }
  else a

def ofLines (lines : List String) : Account := lines.foldl hear {}

end Account

def snapshots (lines : List String) : List Progress := (Account.ofLines lines).snapshots

def tail? (lines : List String) : Option String :=
  let text := "\n".intercalate (Account.ofLines lines).tail
  if text = "" then none else some text

end Montage.Report
