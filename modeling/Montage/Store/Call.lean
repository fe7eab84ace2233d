import Montage.Store.Local
import Montage.Store.Memory

/-! Calls of an asset store, and what comes out of many of them in a row. -/
namespace Montage

inductive StoreCall where
  | save (id : AssetId) (bytes : Bytes)
  | load (id : AssetId)
  | delete (id : AssetId)
  | contains (id : AssetId)
deriving DecidableEq

/-- The id that a call is about. -/
def StoreCall.id : StoreCall → AssetId
  | save id _ | load id | delete id | contains id => id

inductive StoreAnswer where
  | done
  | loaded (bytes : Bytes)
  | found (there : Bool)
  | failed (cause : StorageError)
deriving DecidableEq

def StoreAnswer.of {α : Type} (answer : α → StoreAnswer) : Except StorageError α → StoreAnswer
  | .ok a => answer a
  | .error e => .failed e

/-- What a store has become after each call, and its answer. -/
def StoreCall.run {σ : Type} (answer : σ → StoreCall → σ × StoreAnswer) (state : σ) :
    List StoreCall → List (σ × StoreAnswer)
  | [] => []
  | call :: rest => answer state call :: run answer (answer state call).1 rest

def LocalStore.answer (state : LocalStore × FileTree) : StoreCall →
    (LocalStore × FileTree) × StoreAnswer
  | .save id bytes =>
    let (next, tree, result) := state.1.save state.2 id bytes
    ((next, tree), .of (fun () => .done) result)
  | .load id => (state, .of .loaded (state.1.load state.2 id))
  | .delete id =>
    let (tree, result) := state.1.delete state.2 id
    ((state.1, tree), .of (fun () => .done) result)
  | .contains id => (state, .of .found (state.1.contains state.2 id))

def MemoryStore.answer (s : MemoryStore) : StoreCall → MemoryStore × StoreAnswer
  | .save id bytes =>
    let (next, result) := s.save id bytes
    (next, .of (fun () => .done) result)
  | .load id => (s, .of .loaded (s.load id))
  | .delete id =>
    let (next, result) := s.delete id
    (next, .of (fun () => .done) result)
  | .contains id => (s, .of .found (s.contains id))

end Montage
