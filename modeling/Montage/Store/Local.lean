import Montage.FileTree.Route
import Montage.Store.Key
import Montage.Text.Numeral

/-! An asset store in a directory, one file for each asset. A new value is written to a temporary file
beside its place and then moved there, so that the place never holds half a value. -/
namespace Montage

structure LocalStore where
  root : Route
  /-- The number of the process, part of every temporary name. -/
  process : UInt32 := 0
  /-- How many temporary names have been given out. -/
  sequence : UInt64 := 0

/-- Where a save goes wrong by itself, apart from what the file tree forbids. -/
inductive SaveTrouble where
  /-- The last directories on the way to the root are not made. -/
  | making (left : Nat) (cause : IoError)
  | opening (cause : IoError)
  /-- The temporary file gets only some of the bytes. -/
  | writing (written : Nat) (cause : IoError)
  | renaming (cause : IoError)

namespace LocalStore

open Store (checkKey)

def place (s : LocalStore) (key : String) : Route := s.root.child key

def locate (s : LocalStore) (id : AssetId) : Except StorageError Route :=
  (checkKey id).map s.place

def temporaryName (key : String) (process : UInt32) (sequence : UInt64) : String :=
  "." ++ key ++ "." ++ Numeral.text process.toNat ++ "." ++ Numeral.text sequence.toNat ++ ".tmp"

def temporaryPlace (s : LocalStore) (key : String) : Route :=
  s.root.child (temporaryName key s.process s.sequence)

def makeRoot (s : LocalStore) (t : FileTree) (trouble : Option SaveTrouble) :
    FileTree × Except IoError Unit :=
  match trouble with
  | some (.making left e) => ((t.makeAll (s.root.ancestors.drop left)).1, .error e)
  | _ => t.makeDirectories s.root

/-- Writes the temporary file. A write that fails on the way leaves what it has written. -/
def writeTemporary (t : FileTree) (p : Route) (bytes : Bytes) (trouble : Option SaveTrouble) :
    FileTree × Except IoError Unit :=
  match trouble with
  | some (.opening e) => (t, .error e)
  | some (.writing written e) =>
    match t.write p (bytes.take written) with
    | .ok t => (t, .error e)
    | .error e => (t, .error e)
  | _ =>
    match t.write p bytes with
    | .ok t => (t, .ok ())
    | .error e => (t, .error e)

def moveIntoPlace (t : FileTree) (source target : Route) (trouble : Option SaveTrouble) :
    FileTree × Except IoError Unit :=
  let moved : Except IoError FileTree := match trouble with
    | some (.renaming e) => .error e
    | _ => t.rename source target
  match moved with
  | .ok t => (t, .ok ())
  | .error e =>
    match t.remove source with
    | .ok t => (t, .error e)
    | .error _ => (t, .error e)

/-- A save as a whole: make the root, write the temporary file, move it into place. -/
def saveUnder (trouble : Option SaveTrouble) (s : LocalStore) (t : FileTree) (id : AssetId)
    (bytes : Bytes) : LocalStore × FileTree × Except StorageError Unit :=
  match checkKey id with
  | .error e => (s, t, .error e)
  | .ok key =>
    match s.makeRoot t trouble with
    | (t, .error e) => (s, t, .error (.io e))
    | (t, .ok ()) =>
      let next := { s with sequence := s.sequence + 1 }
      match writeTemporary t (s.temporaryPlace key) bytes trouble with
      | (t, .error e) => (next, t, .error (.writeFailed key e))
      | (t, .ok ()) =>
        match moveIntoPlace t (s.temporaryPlace key) (s.place key) trouble with
        | (t, .error e) => (next, t, .error (.writeFailed key e))
        | (t, .ok ()) => (next, t, .ok ())

def save (s : LocalStore) (t : FileTree) (id : AssetId) (bytes : Bytes) :
    LocalStore × FileTree × Except StorageError Unit :=
  saveUnder none s t id bytes

def keyError (key : String) : IoError → StorageError
  | .notFound => .notFound key
  | e => .io e

def load (s : LocalStore) (t : FileTree) (id : AssetId) : Except StorageError Bytes := do
  let key ← checkKey id
  (t.read (s.place key)).mapError (keyError key)

def delete (s : LocalStore) (t : FileTree) (id : AssetId) : FileTree × Except StorageError Unit :=
  match checkKey id with
  | .error e => (t, .error e)
  | .ok key =>
    match t.remove (s.place key) with
    | .ok t => (t, .ok ())
    | .error e => (t, .error (keyError key e))

def contains (s : LocalStore) (t : FileTree) (id : AssetId) : Except StorageError Bool := do
  let key ← checkKey id
  (t.present (s.place key)).mapError .io

end LocalStore
end Montage
