import Montage.Json.Numeral
import Montage.Json.Reader
import Montage.Text.Quoted

/-! From JSON values to values of the domain. A decoder walks a value in text order and reports the
first problem. A record is an object whose keys stand in any order, or the list of its fields in
declaration order. -/
namespace Montage.Json

/-- How a sound value differs from what was wanted. -/
inductive Mismatch where
  | invalidType (found : String) (expected : String)
  | invalidValue (i : Int) (expected : String)
  | invalidLength (length : Nat) (expected : String)
  | duplicateField (name : String)
  | missingField (name : String)
  | unknownVariant (name : String) (known : List String)
deriving DecidableEq

def backquoted (name : String) : String := "`" ++ name ++ "`"

def Mismatch.message : Mismatch → String
  | invalidType found expected => "invalid type: " ++ found ++ ", expected " ++ expected
  | invalidValue i expected =>
    "invalid value: integer " ++ backquoted (Numeral.signedText i) ++ ", expected " ++ expected
  | invalidLength length expected =>
    "invalid length " ++ Numeral.text length ++ ", expected " ++ expected
  | duplicateField name => "duplicate field " ++ backquoted name
  | missingField name => "missing field " ++ backquoted name
  | unknownVariant name known =>
    "unknown variant " ++ backquoted name ++ ", expected one of " ++
      ", ".intercalate (known.map backquoted)

inductive Problem where
  | text (f : Fault)
  | data (m : Mismatch)
deriving DecidableEq

def Problem.message : Problem → String
  | text f => f.message
  | data m => m.message

abbrev Decoder (α : Type) := Json → Except Problem α

/-- How a value is named where another kind was wanted. -/
def kind : Json → String
  | null => "null"
  | bool b => "boolean " ++ backquoted (if b then "true" else "false")
  | number (.integer i) => "integer " ++ backquoted (Numeral.signedText i)
  | number (.float x) => "floating point " ++ backquoted (floatText x)
  | string s => "string " ++ Text.quote s
  | array _ => "sequence"
  | object _ => "map"
  | hugeNumber | unpaired _ | broken _ | fault _ => ""

/-- The problem of a value of another kind than `expected`. Lists and objects are not looked into;
any other value has to be sound before it can be of the wrong kind. -/
def wrongKind (expected : String) : Json → Problem
  | broken f | fault f => .text f
  | unpaired _ => .text .loneSurrogate
  | hugeNumber => .text .numberOutOfRange
  | j => .data (.invalidType j.kind expected)

def asString : Decoder String
  | string s => .ok s
  | j => .error (wrongKind "a string" j)

def asFloat : Decoder Binary64
  | number (.integer i) => .ok (Binary64.ofInt i)
  | number (.float x) => .ok x
  | j => .error (wrongKind "f64" j)

def asWord : Decoder Nat
  | number (.integer i) =>
    if 0 ≤ i ∧ i < Int.pow 2 32 then .ok i.toNat else .error (.data (.invalidValue i "u32"))
  | j => .error (wrongKind "u32" j)

def asList (item : Decoder α) : Decoder (List α)
  | array items => items.mapM item
  | j => .error (wrongKind "a sequence" j)

def asOption (value : Decoder α) : Decoder (Option α)
  | null => .ok none
  | j => (value j).map some

/-- One of some names, alone or as the key of an object that holds it and null. -/
def asVariant (names : List (String × α)) : Decoder α
  | string s => variant s
  | object ((key, value) :: rest) => do
    let found ← match key with
      | string s => variant s
      | fault f => .error (.text f)
      | unpaired _ => .error (.text .loneSurrogate)
      | _ => .error (.text .keyNotString)
    match value with
    | null => pure ()
    | j => .error (wrongKind "unit" j)
    match rest with
    | [] => pure found
    | (.fault .endInObject, _) :: _ => .error (.text .endInObject)
    | _ => .error (.text .expectedValue)
  | fault f => .error (.text f)
  | unpaired _ => .error (.text .loneSurrogate)
  | _ => .error (.text .expectedValue)
where
  variant (s : String) : Except Problem α :=
    match names.lookup s with
    | some found => .ok found
    | none => .error (.data (.unknownVariant s (names.map (·.1))))

structure RecordField (α : Type) where
  name : String
  decode : Decoder α
  /-- The value of a field whose key is missing. -/
  default? : Option α := none
  /-- Whether the default also stands for an element missing at the end of a list. -/
  listDefault : Bool := default?.isSome

/-- What the walk through a record has to know about a field. -/
structure Entry where
  name : String
  check : Json → Except Problem Unit
  listDefault : Bool

def RecordField.entry (f : RecordField α) : Entry :=
  ⟨f.name, fun j => (f.decode j).map fun _ => (), f.listDefault⟩

abbrev Members := List (Json × Json)

def Members.get? (members : Members) (name : String) : Option Json :=
  members.findSome? fun
    | (.string key, value) => if key = name then some value else none
    | _ => none

def RecordField.get (f : RecordField α) (members : Members) : Except Problem α :=
  match members.get? f.name with
  | some j => f.decode j
  | none => match f.default? with
    | some a => .ok a
    | none => .error (.data (.missingField f.name))

structure Record (α : Type) where
  name : String
  entries : List Entry
  build : Members → Except Problem α

namespace Record

/-- Walks the members in text order. A known key must not be repeated and its value has to decode; the
value of any other key is passed over. -/
def checkMembers (entries : List Entry) (seen : List String) : Members → Except Problem Unit
  | [] => .ok ()
  | (.string key, value) :: rest =>
    match entries.find? (·.name = key) with
    | some entry =>
      if key ∈ seen then .error (.data (.duplicateField key))
      else do
        entry.check value
        checkMembers entries (key :: seen) rest
    | none =>
      match value.skipFault? with
      | some f => .error (.text f)
      | none => checkMembers entries seen rest
  | (.unpaired _, _) :: _ => .error (.text .loneSurrogate)
  | (.fault f, _) :: _ => .error (.text (if f = .expectedValue then .keyNotString else f))
  | _ => .error (.text .keyNotString)

/-- The fields that a list left out must have a default there. -/
def checkAbsent (name : String) (total : Nat) (index : Nat) : List Entry → Except Problem Unit
  | [] => .ok ()
  | entry :: rest =>
    if entry.listDefault then checkAbsent name total (index + 1) rest
    else .error (.data (.invalidLength index
      ("struct " ++ name ++ " with " ++ Numeral.text total ++ " elements")))

def checkExcess : List Json → Except Problem Unit
  | [] => .ok ()
  | .fault f :: _ =>
    .error (.text (if f = .endInList ∨ f = .trailingComma then f else .trailingCharacters))
  | _ => .error (.text .trailingCharacters)

def decode (r : Record α) : Decoder α
  | object members => do
    checkMembers r.entries [] members
    r.build members
  | array items => do
    let members := (r.entries.zip items).map fun (entry, item) => (.string entry.name, item)
    checkMembers r.entries [] members
    checkAbsent r.name r.entries.length items.length (r.entries.drop items.length)
    checkExcess (items.drop r.entries.length)
    r.build members
  | j => .error (wrongKind ("struct " ++ r.name) j)

end Record

/-- Decodes the value of a text, behind which only space may follow. -/
def Document.decode (decoder : Decoder α) (d : Document) : Except Problem α := do
  let a ← decoder d.root
  if d.trailing then throw (.text .trailingCharacters)
  return a

end Montage.Json
