import Montage.FileTree.Basic
import Montage.Overlay.Basic

/-! Which asset ids a store accepts, and how its operations fail. -/
namespace Montage

inductive StorageError where
  | notFound (key : String)
  | invalidKey (key : String)
  | writeFailed (key : String) (cause : IoError)
  | io (cause : IoError)
deriving DecidableEq

namespace StorageError

def message : StorageError → String
  | notFound key => s!"Asset not found: {key}"
  | invalidKey key => s!"Invalid key: {key}"
  | writeFailed key cause => s!"Write failed for {key}: {cause.message}"
  | io cause => s!"IO error: {cause.message}"

def isNotFound : StorageError → Bool
  | notFound _ => true
  | _ => false

end StorageError

namespace Store

/-- The longest accepted id. -/
def maxKeyLength : Nat := 128

def isKeyChar (c : Char) : Bool := c.isAlphanum || c = '-' || c = '_' || c = '.'

/-- A key is a single name: ASCII letters, digits, `-`, `_` and `.`, and not one or two points alone. -/
def isKey (cs : List Char) : Bool :=
  cs ≠ [] && cs.length ≤ maxKeyLength && cs ≠ ['.'] && cs ≠ ['.', '.'] && cs.all isKeyChar

def checkKey (id : AssetId) : Except StorageError String :=
  if isKey id.toList then .ok id else .error (.invalidKey id)

end Store
end Montage
