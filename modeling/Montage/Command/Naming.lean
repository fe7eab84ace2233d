import Montage.Format
import Montage.Path

/-! File names for a run. The source gets a name that is safe wherever it came from, and the output is
named after it. -/
namespace Montage.Naming

def isNameChar (c : Char) : Bool := c.isAlphanum || c = '.' || c = '-' || c = '_'

/-- A name that starts with a dash would be read as an option. -/
def withoutDash : List Char → List Char
  | '-' :: cs => '_' :: cs
  | cs => cs

def cleaned (cs : List Char) : List Char :=
  withoutDash (cs.map fun c => if isNameChar c then c else '_')

def isFilling (cs : List Char) : Bool := cs.all fun c => c = '_' || c = '.'

/-- How the names of the overlay images begin; no source is named so. -/
def imageStem : List Char := "overlay".toList

/-- The name of the source within a run: the last name of its path without unsafe characters. -/
def sourceChars (format : Format) (path : List Char) : List Char :=
  let name := cleaned ((Path.fileName? path).getD [])
  if isFilling name then "source.".toList ++ format.extension.toList
  else if imageStem.isPrefixOf name then "source-".toList ++ name
  else name

def source (format : Format) (path : String) : String :=
  String.ofList (sourceChars format path.toList)

def outputChars (source suffix : List Char) (format : Format) : List Char :=
  (Path.stem? source).getD "output".toList ++ suffix ++ '.' :: format.extension.toList

def output (source suffix : String) (format : Format) : String :=
  String.ofList (outputChars source.toList suffix.toList format)

end Montage.Naming
