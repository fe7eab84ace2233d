import Montage.Binary64.Decimal

/-! JSON values as they are met in a text. A text is read from front to back, and where it goes
wrong a leaf says how, so that whoever walks the value in the same order meets the first problem
first, whether it is one of the text or of the value. -/
namespace Montage

inductive Json.Fault where
  | endInList
  | endInObject
  | endInString
  | endInNumber
  | endInValue
  | expectedColon
  | expectedListEnd
  | expectedObjectEnd
  | expectedIdent
  | expectedValue
  | invalidEscape
  | invalidNumber
  | numberOutOfRange
  | controlCharacter
  | keyNotString
  | loneSurrogate
  | trailingComma
  | trailingCharacters
deriving DecidableEq, Repr

namespace Json.Fault

/-- Whether the text ended too early, rather than going on wrongly. -/
def isEnd : Fault → Bool
  | endInList | endInObject | endInString | endInNumber | endInValue => true
  | _ => false

def message : Fault → String
  | endInList => "EOF while parsing a list"
  | endInObject => "EOF while parsing an object"
  | endInString => "EOF while parsing a string"
  | endInNumber | endInValue => "EOF while parsing a value"
  | expectedColon => "expected `:`"
  | expectedListEnd => "expected `,` or `]`"
  | expectedObjectEnd => "expected `,` or `\x7d`"
  | expectedIdent => "expected ident"
  | expectedValue => "expected value"
  | invalidEscape => "invalid escape"
  | invalidNumber => "invalid number"
  | numberOutOfRange => "number out of range"
  | controlCharacter => "control character (\\u0000-\\u001F) found while parsing a string"
  | keyNotString => "key must be a string"
  | loneSurrogate => "lone leading surrogate in hex escape"
  | trailingComma => "trailing comma"
  | trailingCharacters => "trailing characters"

end Json.Fault

/-- A number is whole when it is written without point and exponent and fits 64 bits. -/
inductive Json.Number where
  | integer (i : Int)
  | float (x : Binary64)
deriving DecidableEq

/-- The members of an object stand in text order, keys repeated or not. A key is a `string` in a
sound text. -/
inductive Json where
  | null
  | bool (b : Bool)
  | number (n : Json.Number)
  | string (s : String)
  | array (items : List Json)
  | object (members : List (Json × Json))
  /-- A number too large for a double. -/
  | hugeNumber
  /-- A string with half of a surrogate pair, which no text value can hold, and what is wrong with
  the string further on. -/
  | unpaired (later : Option Json.Fault)
  /-- A literal or number that begins as one but is malformed. -/
  | broken (f : Json.Fault)
  /-- Nothing readable where a value, an item or a key has to be. -/
  | fault (f : Json.Fault)

namespace Json

instance : Inhabited Json := ⟨null⟩

def ofNat (n : Nat) : Json := .number (.integer n)

def ofFloat (x : Binary64) : Json := .number (.float x)

def ofStrings (l : List String) : Json := .array (l.map .string)

def ofMembers (members : List (String × Json)) : Json :=
  .object (members.map fun (key, value) => (.string key, value))

mutual

/-- The problem met when a value is passed over unread: its text has to be well-formed, but numbers
may have any size and strings may hold halves of surrogate pairs. A number that breaks off is
malformed here. -/
def skipFault? : Json → Option Fault
  | .array items => skipItems? items
  | .object members => skipMembers? members
  | .unpaired later => later
  | .broken f => some (if f = .endInNumber then .invalidNumber else f)
  | .fault f => some f
  | _ => none

def skipItems? : List Json → Option Fault
  | [] => none
  | item :: items => (skipFault? item).or (skipItems? items)

def skipMembers? : List (Json × Json) → Option Fault
  | [] => none
  | member :: members => (skipMember? member).or (skipMembers? members)

def skipMember? : Json × Json → Option Fault
  | (.string _, value) => skipFault? value
  | (.unpaired later, value) => later.or (skipFault? value)
  | (.fault f, _) => some (if f = .expectedValue then .keyNotString else f)
  | _ => some .keyNotString

end

end Json
end Montage
