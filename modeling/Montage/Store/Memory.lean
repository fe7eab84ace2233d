import Montage.Store.Key

/-! An asset store in memory. -/
namespace Montage

structure MemoryStore where
  assets : List (String × Bytes) := []

namespace MemoryStore

open Store (checkKey)

def size (s : MemoryStore) : Nat := s.assets.length

def erase (s : MemoryStore) (key : String) : MemoryStore := ⟨s.assets.filter fun a => a.1 ≠ key⟩

def save (s : MemoryStore) (id : AssetId) (bytes : Bytes) : MemoryStore × Except StorageError Unit :=
  match checkKey id with
  | .error e => (s, .error e)
  | .ok key => (⟨(key, bytes) :: (s.erase key).assets⟩, .ok ())

def load (s : MemoryStore) (id : AssetId) : Except StorageError Bytes := do
  let key ← checkKey id
  match s.assets.lookup key with
  | some bytes => .ok bytes
  | none => .error (.notFound key)

def delete (s : MemoryStore) (id : AssetId) : MemoryStore × Except StorageError Unit :=
  match checkKey id with
  | .error e => (s, .error e)
  | .ok key =>
    if (s.assets.lookup key).isSome then (s.erase key, .ok ()) else (s, .error (.notFound key))

def contains (s : MemoryStore) (id : AssetId) : Except StorageError Bool := do
  let key ← checkKey id
  return (s.assets.lookup key).isSome

end MemoryStore
end Montage
