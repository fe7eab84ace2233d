import Montage.FileTree.Basic
import Montage.Text.Alphanumeric
import Montage.Text.Blank

/-! Environment files: lines `NAME=value` that set variables which are not set yet. A value may be
quoted, stretch over lines inside quotes, hold escapes outside single quotes, and name variables by
`$NAME` with or without braces around the name. Reading ends at the first line that is faulty. -/
namespace Montage.EnvFile

/-- Where a line stands: how it is quoted, and whether it is behind space. -/
inductive LineState where
  | complete
  | blank
  | escape
  | weak
  | weakEscape
  | strong
  | strongEscape
  | comment
deriving DecidableEq

namespace LineState

def opened (c : Char) : LineState :=
  if c = '\\' then escape else if c = '"' then weak else if c = '\'' then strong else complete

def next : LineState → Char → LineState
  | complete, c => if Text.isBlank c && c ≠ '\n' && c ≠ '\r' then blank else opened c
  | blank, c => if c = '#' then comment else opened c
  | escape, _ => complete
  | weak, c => if c = '\\' then weakEscape else if c = '"' then complete else weak
  | weakEscape, _ => weak
  | strong, c => if c = '\\' then strongEscape else if c = '\'' then complete else strong
  | strongEscape, _ => strong
  | comment, _ => comment

end LineState

/-- The part of a line before its comment, and the state at its end. -/
def scanLine (state : LineState) : List Char → List Char × LineState
  | [] => ([], state)
  | c :: cs =>
    if state.next c = .comment then ([], .comment)
    else
      let (rest, last) := scanLine (state.next c) cs
      (c :: rest, last)

/-- A line without the line feed, and the carriage return before it, at its end. -/
def withoutEnd (cs : List Char) : List Char :=
  match cs.reverse with
  | '\n' :: '\r' :: rest | '\n' :: rest => rest.reverse
  | _ => cs

def isComment (cs : List Char) : Bool := (cs.dropWhile Text.isBlank).head? = some '#'

/-- The lines with those joined that belong together. None stands for a line that is faulty, also at
the end if more is expected there. -/
def joined (pending : List Char) (state : LineState) : List (Option (List Char)) →
    List (Option (List Char))
  | [] => if state = .complete then [] else [none]
  | none :: _ => [none]
  | some line :: rest =>
    if isComment (pending ++ line) then some [] :: joined [] .complete rest
    else match scanLine state line with
      | (part, .comment) => some (pending ++ part) :: joined [] .complete rest
      | (part, .complete) => some (withoutEnd (pending ++ part)) :: joined [] .complete rest
      | (part, state) => joined (pending ++ part) state rest

/-- What the characters of a value mean. The flags say whether double quotes are open. -/
inductive ValueState where
  | plain
  | weak
  | strong
  | escaped (inWeak : Bool)
  | variable (inWeak : Bool) (name : List Char)
  | braced (inWeak : Bool) (name : List Char)
  | ended

def ValueState.unquoted (inWeak : Bool) : ValueState := if inWeak then .weak else .plain

def escapedChar? (c : Char) : Option Char :=
  if c ∈ ['\\', '\'', '"', '$', ' '] then some c else if c = 'n' then some '\n' else none

/-- Reads a value. A name ends before the first character that is no letter or number, which then
stands for itself unless it begins another name. -/
def readValue? (look : List Char → List Char) : ValueState → List Char → Option (List Char)
  | .plain, [] | .ended, [] | .escaped false, [] => some []
  | .variable false name, [] => some (look name)
  | _, [] => none
  | .ended, c :: cs =>
    if c = ' ' ∨ c = '\t' then readValue? look .ended cs else if c = '#' then some [] else none
  | .escaped inWeak, c :: cs =>
    match escapedChar? c with
    | some d => (readValue? look (.unquoted inWeak) cs).map (d :: ·)
    | none => none
  | .strong, c :: cs =>
    if c = '\'' then readValue? look .plain cs else (readValue? look .strong cs).map (c :: ·)
  | .variable inWeak name, c :: cs =>
    if Text.isAlphanumeric c then readValue? look (.variable inWeak (name ++ [c])) cs
    else if c = '\x7b' ∧ name = [] then readValue? look (.braced inWeak []) cs
    else if c = '$' then (readValue? look (.variable inWeak []) cs).map (look name ++ ·)
    else (readValue? look (.unquoted inWeak) cs).map fun rest => look name ++ c :: rest
  | .braced inWeak name, c :: cs =>
    if c = '\x7d' then (readValue? look (.unquoted inWeak) cs).map (look name ++ ·)
    else readValue? look (.braced inWeak (name ++ [c])) cs
  | .weak, c :: cs =>
    if c = '$' then readValue? look (.variable true []) cs
    else if c = '"' then readValue? look .plain cs
    else if c = '\\' then readValue? look (.escaped true) cs
    else (readValue? look .weak cs).map (c :: ·)
  | .plain, c :: cs =>
    if c = '$' then readValue? look (.variable false []) cs
    else if c = '\'' then readValue? look .strong cs
    else if c = '"' then readValue? look .weak cs
    else if c = '\\' then readValue? look (.escaped false) cs
    else if c = ' ' ∨ c = '\t' then readValue? look .ended cs
    else (readValue? look .plain cs).map (c :: ·)

def readName? (cs : List Char) : Option (List Char × List Char) :=
  let isStart (c : Char) : Bool := c.isAlpha || c = '_'
  let isInner (c : Char) : Bool := c.isAlphanum || c = '_' || c = '.'
  if cs.head?.any isStart then
    let (name, rest) := cs.span isInner
    some (name, rest.dropWhile Text.isBlank)
  else none

/-- The name of a line and what follows its equals sign. The word `export` may stand before. -/
def readAssignment? (cs : List Char) : Option (List Char × List Char) := do
  let (name, rest) ← readName? cs
  match rest with
  | '=' :: value => return (name, value.dropWhile Text.isBlank)
  | _ =>
    if name = "export".toList then
      let (name, rest) ← readName? rest
      match rest with
      | '=' :: value => return (name, value.dropWhile Text.isBlank)
      | _ => none
    else none

abbrev Variables := List (String × String)

def setNew (environment : Variables) (name text : List Char) : Variables :=
  if (environment.lookup (String.ofList name)).isSome then environment
  else environment ++ [(String.ofList name, String.ofList text)]

def behind? (start cs : List Char) : Option (List Char) :=
  if start.isPrefixOf cs then some (cs.drop start.length) else none

/-- The value of a variable, empty if it is not set. The variables are searched as texts `NAME=value`
for one that begins with the name and an equals sign, so a name may reach into a value. -/
def valueOf (environment : Variables) (name : List Char) : List Char :=
  (environment.findSome? fun (known, value) =>
    behind? (name ++ ['=']) (known.toList ++ '=' :: value.toList)).getD []

/-- The environment after the joined lines. A value sees the variables that are set before it. -/
def readLines (environment : Variables) : List (Option (List Char)) → Variables
  | [] | none :: _ => environment
  | some line :: rest =>
    let cs := Text.trim line
    if cs = [] ∨ cs.head? = some '#' then readLines environment rest
    else match readAssignment? cs with
      | none => environment
      | some (name, value) =>
        let text? := if value.head? = some '#' then some []
          else readValue? (valueOf environment) .plain value
        match text? with
        | none => environment
        | some text => readLines (setNew environment name text) rest

/-- The environment with the variables of a file that it does not set itself. -/
def extend (environment : Variables) (bytes : Bytes) : Variables :=
  let body : Bytes := match bytes with
    | 0xEF :: 0xBB :: 0xBF :: rest => rest
    | _ => bytes
  readLines environment
    (joined [] .complete (body.lines.map fun line => (Bytes.text? line).map String.toList))

/-- The file `.env` in a directory, or in the nearest one above that has it. -/
def find? (t : FileTree) (here : Location) : Option Bytes :=
  match t.lookup (here ++ [".env"]) with
  | some (.file bytes) => some bytes
  | _ => if here = [] then none else find? t here.dropLast
termination_by here.length
decreasing_by
  rename_i h
  have : 0 < here.length := List.length_pos_iff.2 h
  simp only [List.length_dropLast]
  omega

end Montage.EnvFile
