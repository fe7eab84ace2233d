import Montage.Store.Call

/-! Calls of a store in a directory that go on at the same time. Each takes its steps one by one, and
between any two of them the others may take theirs. -/
namespace Montage

/-- A file with a piece written into it from a position on. If it is shorter than that, it gets zeros
up to there. -/
def Bytes.overwrite (old : Bytes) (position : Nat) (piece : Bytes) : Bytes :=
  old.take position ++ List.replicate (position - old.length) 0 ++ piece ++
    old.drop (position + piece.length)

namespace FileTree

/-- Writes a piece into an open file. What is written into one that has no name any more is lost. -/
def overwrite (t : FileTree) (file : Option Location) (position : Nat) (piece : Bytes) : FileTree :=
  match file with
  | none => t
  | some p =>
    match t.lookup p with
    | some (.file old) => t.put p (.file (old.overwrite position piece))
    | _ => t

end FileTree

inductive StoreEvent where
  | numbered (number : UInt64)
  | wrote (place : Location)
  | moved (source target : Location)
  | withdrawn (place : Location)
  | deleted (place : Location)
  /-- A call was answered, and nothing changed. -/
  | looked
deriving DecidableEq

/-- Where an open file stands after an event. It goes along when it is moved, and has no name any more
when another one takes its place. -/
def StoreEvent.follow : StoreEvent → Location → Option Location
  | moved source target, p =>
    if p = source then some target else if p = target then none else some p
  | withdrawn place, p | deleted place, p => if p = place then none else some p
  | _, p => some p

/-- How far a call has got. A save writes to an open file, and has written so many bytes. -/
inductive CallPhase where
  | waiting (call : StoreCall)
  | rooted (key : String) (bytes : Bytes)
  | numbered (key : String) (bytes : Bytes) (temporary : Route)
  | writing (key : String) (bytes : Bytes) (temporary : Route) (file : Option Location)
      (written : Nat)
  | unmoved (key : String) (temporary : Route) (cause : IoError)
  | finished (answer : StoreAnswer)
deriving DecidableEq

/-- What comes of a step. -/
structure CallStep where
  phase : CallPhase
  store : LocalStore
  tree : FileTree
  event : Option StoreEvent := none

namespace CallPhase

open Store (checkKey)

def isFinished : CallPhase → Bool
  | finished _ => true
  | _ => false

def after (event : Option StoreEvent) : CallPhase → CallPhase
  | writing key bytes temporary file written =>
    writing key bytes temporary (event.elim file fun event => file.bind event.follow) written
  | phase => phase

/-- The next step of a call. A write does not write more bytes at once than it is asked to. -/
def step (size : Nat) (s : LocalStore) (t : FileTree) : CallPhase → CallStep
  | waiting (.save id bytes) =>
    match checkKey id with
    | .error e => ⟨finished (.failed e), s, t, none⟩
    | .ok key =>
      match t.makeDirectories s.root with
      | (t, .error e) => ⟨finished (.failed (.io e)), s, t, none⟩
      | (t, .ok ()) => ⟨rooted key bytes, s, t, none⟩
  | waiting (.delete id) =>
    match s.delete t id with
    | (left, .ok ()) => ⟨finished .done, s, left, some (.deleted (t.locate (s.place id)))⟩
    | (left, .error e) => ⟨finished (.failed e), s, left, some .looked⟩
  | waiting call => ⟨finished (LocalStore.answer (s, t) call).2, s, t, some .looked⟩
  | rooted key bytes =>
    ⟨numbered key bytes (s.temporaryPlace key), { s with sequence := s.sequence + 1 }, t,
      some (.numbered s.sequence)⟩
  | numbered key bytes temporary =>
    match t.write temporary [] with
    | .error e => ⟨finished (.failed (.writeFailed key e)), s, t, none⟩
    | .ok opened =>
      let p := t.locate temporary
      ⟨writing key bytes temporary (some p) 0, s, opened, some (.wrote p)⟩
  | writing key bytes temporary file written =>
    if written < bytes.length then
      let piece := (bytes.drop written).take size
      ⟨writing key bytes temporary file (written + piece.length), s, t.overwrite file written piece,
        file.map .wrote⟩
    else
      match t.rename temporary (s.place key) with
      | .error e => ⟨unmoved key temporary e, s, t, none⟩
      | .ok moved =>
        ⟨finished .done, s, moved, some (.moved (t.locate temporary) (t.locate (s.place key)))⟩
  | unmoved key temporary cause =>
    match t.remove temporary with
    | .error _ => ⟨finished (.failed (.writeFailed key cause)), s, t, none⟩
    | .ok left =>
      ⟨finished (.failed (.writeFailed key cause)), s, left, some (.withdrawn (t.locate temporary))⟩
  | finished answer => ⟨finished answer, s, t, none⟩

end CallPhase

/-- A store that many calls use at the same time, and what has happened in it so far. -/
structure SharedStore where
  store : LocalStore
  tree : FileTree
  phases : List CallPhase
  history : List (Nat × StoreEvent) := []

namespace SharedStore

def start (s : LocalStore) (t : FileTree) (calls : List StoreCall) : SharedStore :=
  ⟨s, t, calls.map .waiting, []⟩

/-- What comes of a step of one call. The files that others have open are followed. -/
def update (m : SharedStore) (i : Nat) (done : CallStep) : SharedStore where
  store := done.store
  tree := done.tree
  phases := (m.phases.map (.after done.event)).set i done.phase
  history := m.history ++ (done.event.map (i, ·)).toList

/-- A call takes a step. A turn is the number of the call, and how many bytes it may write at once. -/
def step (m : SharedStore) (turn : Nat × Nat) : SharedStore :=
  match m.phases[turn.1]? with
  | none => m
  | some phase => m.update turn.1 (phase.step turn.2 m.store m.tree)

/-- Calls take their steps in some order. -/
def run (m : SharedStore) (schedule : List (Nat × Nat)) : SharedStore := schedule.foldl step m

end SharedStore
end Montage
