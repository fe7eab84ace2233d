import Montage.Text.Blank

/-! Paths as text: names separated by slashes. Empty names and single points other than a leading one
mean nothing. -/
namespace Montage.Path

/-- The names of a path as they are written, an empty one for each slash too many. -/
def pieces (cs : List Char) : List (List Char) := Text.splitOn '/' cs

def isVoid (piece : List Char) : Bool := piece = [] || piece = ['.']

def components (cs : List Char) : List (List Char) := (pieces cs).filter fun p => !isVoid p

/-- The last name, unless the path ends by going up or names nothing. -/
def fileName? (cs : List Char) : Option (List Char) :=
  match (components cs).getLast? with
  | some name => if name = ['.', '.'] then none else some name
  | none => none

def stemOf (name : List Char) : List Char :=
  match (name.reverse.dropWhile (· ≠ '.')).drop 1 with
  | [] => name
  | stem => stem.reverse

def stem? (cs : List Char) : Option (List Char) := (fileName? cs).map stemOf

/-- The pieces without the void ones at the end. A leading piece stays, since it makes the path
absolute or names the current directory. -/
def withoutVoidEnd (pieces : List (List Char)) : List (List Char) :=
  match pieces with
  | [] => []
  | first :: rest => first :: (rest.reverse.dropWhile isVoid).reverse

def ofPieces (pieces : List (List Char)) : List Char :=
  if pieces = [[]] then ['/'] else ['/'].intercalate pieces

/-- The path without its last name, unless nothing is left to take away. -/
def parent? (cs : List Char) : Option (List Char) :=
  match withoutVoidEnd (pieces cs) with
  | [] | [[]] => none
  | [_] => some []
  | ps => some (ofPieces (withoutVoidEnd ps.dropLast))

/-- A path below another one; an absolute path stands for itself. -/
def join (above below : List Char) : List Char :=
  if below.head? = some '/' ∨ above = [] then below
  else if above.getLast? = some '/' then above ++ below
  else above ++ '/' :: below

/-- The path with another last name. A path without a name is gone below. -/
def withFileName (cs name : List Char) : List Char :=
  match fileName? cs with
  | some _ => join ((parent? cs).getD []) name
  | none => join cs name

end Montage.Path
