import Montage.Bytes

/-! File trees: what stands at each location, as a list of entries. The root is a directory, and so is
whatever stands above an entry. -/
namespace Montage

abbrev Location := List String

inductive IoError where
  | notFound
  | alreadyExists
  | notDirectory
  | isDirectory
  | nameTooLong
  | argumentTooLong
  | notText
  | zeroByte
  | other (text : String)
deriving DecidableEq

def IoError.message : IoError → String
  | notFound => "No such file or directory (os error 2)"
  | alreadyExists => "File exists (os error 17)"
  | notDirectory => "Not a directory (os error 20)"
  | isDirectory => "Is a directory (os error 21)"
  | nameTooLong => "File name too long (os error 36)"
  | argumentTooLong => "Argument list too long (os error 7)"
  | notText => "stream did not contain valid UTF-8"
  | zeroByte => "nul byte found in provided data"
  | other text => text

inductive Node where
  | file (bytes : Bytes)
  | directory
deriving DecidableEq

structure FileTree where
  entries : List (Location × Node) := []
deriving DecidableEq

namespace FileTree

def lookup (t : FileTree) (p : Location) : Option Node :=
  if p = [] then some .directory else t.entries.lookup p

/-- The tree with another node at a location, whatever stood there. -/
def put (t : FileTree) (p : Location) (node : Node) : FileTree :=
  ⟨(p, node) :: t.entries.filter fun e => e.1 ≠ p⟩

/-- The tree without what stands at a location, but with all that stands below. -/
def erase (t : FileTree) (p : Location) : FileTree := ⟨t.entries.filter fun e => e.1 ≠ p⟩

def prune (t : FileTree) (p : Location) : FileTree :=
  ⟨t.entries.filter fun e => !p.isPrefixOf e.1⟩

def below (t : FileTree) (p : Location) : FileTree :=
  ⟨t.entries.filterMap fun (q, node) =>
    if p.isPrefixOf q && q ≠ p then some (q.drop p.length, node) else none⟩

/-- Puts another tree below a location in place of what is there. -/
def within (t : FileTree) (p : Location) (change : FileTree → FileTree) : FileTree :=
  ⟨t.entries.filter (fun e => !p.isPrefixOf e.1 || e.1 = p) ++
    (change (t.below p)).entries.map fun e => (p ++ e.1, e.2)⟩

/-- The tree with directories along the names from a location on, as far as no file is in the way. -/
def putDirectories (t : FileTree) (above : Location) : List String → FileTree
  | [] => t
  | name :: rest =>
    match t.lookup (above ++ [name]) with
    | some (.file _) => t
    | some .directory => putDirectories t (above ++ [name]) rest
    | none => putDirectories (t.put (above ++ [name]) .directory) (above ++ [name]) rest

/-- Puts a node at a location below another one, with the directories above it. A file does not take
the place of a directory, nor a directory that of a file. -/
def place (t : FileTree) (above : Location) (p : Location) (node : Node) : FileTree :=
  match node with
  | .directory => t.putDirectories above p
  | .file bytes =>
    let made := t.putDirectories above p.dropLast
    if made.lookup (above ++ p.dropLast) = some .directory ∧
        made.lookup (above ++ p) ≠ some .directory then
      made.put (above ++ p) (.file bytes)
    else made

def graft (t : FileTree) (p : Location) (other : FileTree) : FileTree :=
  other.entries.foldl (fun t (q, node) => t.place p q node) t

def leaves (t : FileTree) : List (Location × Node) :=
  t.entries.filter fun (p, node) =>
    node ≠ .directory || !t.entries.any fun (q, _) => p.isPrefixOf q && q ≠ p

end FileTree
end Montage
