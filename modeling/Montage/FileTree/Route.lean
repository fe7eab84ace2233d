import Montage.FileTree.Basic
import Montage.Path

/-! Ways through a file tree, as paths describe them, and the operations on what stands at their ends.
They fail as the operating system's do. A way goes through directories only, and all that it passes
has to be there; just its last name may be missing. -/
namespace Montage

inductive Step where
  | down (name : String)
  | up
  /-- A single point. -/
  | stay
  /-- Nothing, between two slashes or behind the last one. -/
  | slash
deriving DecidableEq

namespace Step

def ofPiece (piece : List Char) : Step :=
  if piece = [] then slash
  else if piece = ['.'] then stay
  else if piece = ['.', '.'] then up
  else down (String.ofList piece)

def isVoid : Step → Bool
  | stay | slash => true
  | _ => false

end Step

/-- A way from a directory, and how many bytes the path has that describes it. -/
structure Route where
  start : Location
  steps : List Step := []
  size : Nat := 0
deriving DecidableEq

namespace Route

def stepsOf (cs : List Char) : List Step := (Path.pieces cs).map Step.ofPiece

/-- The way along a path: from the root if it begins with a slash, and else from a directory. -/
def ofPath (here : Location) (path : String) : Route :=
  match path.toList with
  | [] => ⟨here, [], 0⟩
  | '/' :: cs => ⟨[], stepsOf cs, path.utf8ByteSize⟩
  | cs => ⟨here, stepsOf cs, path.utf8ByteSize⟩

/-- The way along a path that a user named, which must not be empty. -/
def parse (here : Location) (path : String) : Except IoError Route :=
  if path = "" then .error .notFound else .ok (ofPath here path)

def endsInSlash (r : Route) : Bool := r.steps.getLast? = some .slash

/-- The way that goes on by some steps, written as a text of the given size. A slash stands between,
unless there is one or nothing stands before it. -/
def extend (r : Route) (steps : List Step) (size : Nat) : Route :=
  ⟨r.start, r.steps ++ steps, r.size + (if r.size = 0 ∨ r.endsInSlash then 0 else 1) + size⟩

/-- The way to a name in the directory at the end of a way. -/
def child (r : Route) (name : String) : Route := r.extend [.down name] name.utf8ByteSize

def along (r : Route) (path : String) : Route := r.extend (stepsOf path.toList) path.utf8ByteSize

def withoutSlash (r : Route) : Route :=
  { r with steps := (r.steps.reverse.dropWhile (· = .slash)).reverse }

/-- The beginnings of a way that end in a name or going up, the longest first. The way is given from
its end. -/
def beginnings : List Step → List (List Step)
  | [] => []
  | step :: before =>
    if step.isVoid then beginnings before else (step :: before).reverse :: beginnings before

/-- The way itself, and those to the directories above, the nearest first. These are shorter, but only
matter if the way itself is not too long. -/
def ancestors (r : Route) : List Route :=
  r :: (beginnings r.steps.reverse).tail.map fun steps => { r with steps }

/-- The way to the directory in which the last name of a way is looked up, if it ends in a name. -/
def aboveName (r : Route) : Route :=
  match r.withoutSlash.steps.reverse with
  | .down _ :: above => { r with steps := (.slash :: above).reverse }
  | _ => r

end Route

structure Spot where
  location : Location
  /-- What stands there, if anything does. -/
  node : Option Node

namespace FileTree

def nameLimit : Nat := 255

def pathLimit : Nat := 4096

def walkFrom (t : FileTree) (above : Location) : List Step → Except IoError Spot
  | [] => .ok ⟨above, some .directory⟩
  | .stay :: rest | .slash :: rest => walkFrom t above rest
  | .up :: rest => walkFrom t above.dropLast rest
  | .down name :: rest =>
    if nameLimit < name.utf8ByteSize then .error .nameTooLong
    else match t.lookup (above ++ [name]) with
      | some .directory => walkFrom t (above ++ [name]) rest
      | some (.file bytes) =>
        if rest = [] then .ok ⟨above ++ [name], some (.file bytes)⟩ else .error .notDirectory
      | none => if rest = [] then .ok ⟨above ++ [name], none⟩ else .error .notFound

def walk (t : FileTree) (r : Route) : Except IoError Spot :=
  if pathLimit ≤ r.size then .error .nameTooLong else t.walkFrom r.start r.steps

/-- Where a way ends, or the root if it does not lead anywhere. -/
def locate (t : FileTree) (r : Route) : Location :=
  match t.walk r with
  | .ok spot => spot.location
  | .error _ => []

def resolve (t : FileTree) (r : Route) : Except IoError Location := do
  let spot ← t.walk r
  if spot.node.isSome then return spot.location else throw .notFound

/-- The location of something that is there, found name by name, so that its path may have any
length. -/
def canonical (t : FileTree) (r : Route) : Except IoError Location := t.resolve { r with size := 0 }

def present (t : FileTree) (r : Route) : Except IoError Bool :=
  match t.walk r with
  | .ok spot => .ok spot.node.isSome
  | .error .notFound => .ok false
  | .error e => .error e

def isDirectory (t : FileTree) (r : Route) : Bool :=
  match t.walk r with
  | .ok ⟨_, some .directory⟩ => true
  | _ => false

def read (t : FileTree) (r : Route) : Except IoError Bytes := do
  match (← t.walk r).node with
  | some (.file bytes) => return bytes
  | some .directory => throw .isDirectory
  | none => throw .notFound

/-- Writes a file, new or in place of an old one. A slash at the end asks for a directory, whatever its
name is. -/
def write (t : FileTree) (r : Route) (bytes : Bytes) : Except IoError FileTree := do
  if r.endsInSlash then
    let _ ← t.walk r.aboveName
    throw .isDirectory
  let spot ← t.walk r
  if spot.node = some .directory then throw .isDirectory
  return t.put spot.location (.file bytes)

def makeDirectory (t : FileTree) (r : Route) : Except IoError FileTree := do
  let spot ← t.walk r.withoutSlash
  if spot.node.isSome then throw .alreadyExists
  return t.put spot.location .directory

/-- Makes the directory at the end of the first way. Where it lacks one above it, that is made along
the next way before. Those made on the way stay. -/
def makeAll (t : FileTree) : List Route → FileTree × Except IoError Unit
  | [] => (t, .ok ())
  | r :: above =>
    match t.makeDirectory r with
    | .ok made => (made, .ok ())
    | .error .notFound =>
      match makeAll t above with
      | (made, .error e) => (made, .error e)
      | (made, .ok ()) =>
        match made.makeDirectory r with
        | .ok made => (made, .ok ())
        | .error e => (made, if made.isDirectory r then .ok () else .error e)
    | .error e => (t, if t.isDirectory r then .ok () else .error e)

def makeDirectories (t : FileTree) (r : Route) : FileTree × Except IoError Unit :=
  t.makeAll r.ancestors

def remove (t : FileTree) (r : Route) : Except IoError FileTree := do
  let spot ← t.walk r
  match spot.node with
  | some (.file _) => return t.erase spot.location
  | some .directory => throw .isDirectory
  | none => throw .notFound

def rename (t : FileTree) (source target : Route) : Except IoError FileTree := do
  let bytes ← t.read source
  let removed ← t.remove source
  removed.write target bytes

end FileTree

/-- A directory under the name by which it was given. -/
structure Directory where
  path : String
  route : Route
deriving DecidableEq

namespace Directory

def ofPath (here : Location) (path : String) : Directory := ⟨path, .ofPath here path⟩

def pathOf (d : Directory) (name : String) : String :=
  String.ofList (Path.join d.path.toList name.toList)

def absolutePath (p : Location) : String := "/" ++ "/".intercalate p

/-- The same directory with a path that starts at the root. -/
def absolute (d : Directory) (here : Location) : Directory :=
  { d with path := String.ofList (Path.join (absolutePath here).toList d.path.toList) }

end Directory
end Montage
