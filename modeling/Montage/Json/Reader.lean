import Montage.Json.Basic
import Montage.Json.Rounding
import Montage.Text.Blank

/-! Reading JSON text. Each reader returns what it found and the text behind it, or no text when the
found leaf stops the reading. Nested readers take as fuel a bound on the length of the text; every
call consumes a character or ends. -/
namespace Montage.Json

/-- A value, and the text behind it unless reading has stopped. -/
abbrev Found := Json × Option (List Char)

def isSpace (c : Char) : Bool := c = ' ' || c = '\n' || c = '\t' || c = '\r'

def skipSpace (cs : List Char) : List Char := cs.dropWhile isSpace

/-- A piece of a string: a character, or a code unit written in hexadecimal. -/
inductive Piece where
  | char (c : Char)
  | unit (n : Nat)

def hexValue? (c : Char) : Option Nat :=
  if c.isDigit then some (c.toNat - '0'.toNat)
  else if 'a' ≤ c && c ≤ 'f' then some (c.toNat - 'a'.toNat + 10)
  else if 'A' ≤ c && c ≤ 'F' then some (c.toNat - 'A'.toNat + 10)
  else none

def hexUnit? (cs : List Char) : Option Nat :=
  (cs.mapM hexValue?).map fun ds => ds.foldl (fun n d => n * 16 + d) 0

def escapedChar? : Char → Option Char
  | '"' => some '"'
  | '\\' => some '\\'
  | '/' => some '/'
  | 'b' => some '\x08'
  | 'f' => some '\x0c'
  | 'n' => some '\n'
  | 'r' => some '\r'
  | 't' => some '\t'
  | _ => none

/-- The pieces of a string up to its closing quote, last piece first. Four bytes have to be left for
a code unit, or the text has ended. -/
def readPieces (done : List Piece) : List Char → List Piece × Except Fault (List Char)
  | [] => (done, .error .endInString)
  | '"' :: rest => (done, .ok rest)
  | '\\' :: [] => (done, .error .endInString)
  | '\\' :: 'u' :: a :: b :: c :: d :: rest =>
    match hexUnit? [a, b, c, d] with
    | some n => readPieces (.unit n :: done) rest
    | none => (done, .error .invalidEscape)
  | '\\' :: 'u' :: rest =>
    (done, .error (if (String.ofList rest).utf8ByteSize < 4 then .endInString else .invalidEscape))
  | '\\' :: c :: rest =>
    match escapedChar? c with
    | some e => readPieces (.char e :: done) rest
    | none => (done, .error .invalidEscape)
  | c :: rest =>
    if c.toNat < 0x20 then (done, .error .controlCharacter)
    else readPieces (.char c :: done) rest

def isHighSurrogate (n : Nat) : Bool := 0xD800 ≤ n && n ≤ 0xDBFF

def isLowSurrogate (n : Nat) : Bool := 0xDC00 ≤ n && n ≤ 0xDFFF

/-- Joins surrogate pairs, from the last piece to the first; `none` if a half stands alone. -/
def joinPieces? (text : List Char) : List Piece → Option (List Char)
  | [] => some text
  | .char c :: before => joinPieces? (c :: text) before
  | .unit low :: .unit high :: before =>
    if isLowSurrogate low then
      if isHighSurrogate high then
        let n := 0x10000 + (high - 0xD800) * 0x400 + (low - 0xDC00)
        joinPieces? (Char.ofNat n :: text) before
      else none
    else if isHighSurrogate low then none
    else joinPieces? (Char.ofNat low :: text) (.unit high :: before)
  | .unit n :: before =>
    if isLowSurrogate n || isHighSurrogate n then none
    else joinPieces? (Char.ofNat n :: text) before

/-- The pieces up to a half of a pair at their end, which the text may still have completed. -/
def withoutOpenHalf : List Piece → List Piece
  | .unit n :: before => if isHighSurrogate n then before else .unit n :: before
  | pieces => pieces

def readString (cs : List Char) : Found :=
  match readPieces [] cs with
  | (pieces, .ok rest) =>
    match joinPieces? [] pieces with
    | some text => (.string (String.ofList text), some rest)
    | none => (.unpaired none, some rest)
  | (pieces, .error f) =>
    let whole := if f = .endInString then withoutOpenHalf pieces else pieces
    match joinPieces? [] whole with
    | some _ => (.fault f, none)
    | none => (.unpaired (some f), none)

def readDigits (cs : List Char) : Except Fault (List Char × List Char) :=
  match cs.span Char.isDigit with
  | ([], []) => .error .endInNumber
  | ([], _) => .error .invalidNumber
  | found => .ok found

/-- The digits before the point: a zero stands alone. -/
def readWhole (cs : List Char) : Except Fault (List Char × List Char) :=
  match cs with
  | '0' :: c :: rest => if c.isDigit then .error .invalidNumber else .ok (['0'], c :: rest)
  | _ => readDigits cs

def readFraction : List Char → Except Fault (Option (List Char) × List Char)
  | '.' :: rest => (readDigits rest).map fun (ds, rest) => (some ds, rest)
  | cs => .ok (none, cs)

def readPower (cs : List Char) : Except Fault (Option Int × List Char) :=
  match cs with
  | c :: rest =>
    if c = 'e' ∨ c = 'E' then
      let (negative, rest) := match rest with
        | '+' :: r => (false, r)
        | '-' :: r => (true, r)
        | _ => (false, rest)
      (readDigits rest).map fun (ds, rest) =>
        let n : Int := Numeral.value ds
        (some (if negative then -n else n), rest)
    else .ok (none, cs)
  | [] => .ok (none, cs)

variable (r : Rounding)

/-- The value of a number. A whole number is kept exactly if it fits 64 bits, except that minus zero
is a double. -/
def numberValue (negative : Bool) (whole : List Char) (fraction : Option (List Char))
    (power : Option Int) : Json :=
  let digits := Numeral.value whole
  let x := r.double negative whole fraction power
  let fits := if negative then 0 < digits ∧ digits ≤ Nat.pow 2 63 else digits < Nat.pow 2 64
  if fraction = none ∧ power = none ∧ fits then
    .number (.integer (if negative then -digits else digits))
  else if x.isFinite then .number (.float x)
  else .hugeNumber

def readNumber (cs : List Char) : Found :=
  let (negative, rest) := match cs with
    | '-' :: unsigned => (true, unsigned)
    | _ => (false, cs)
  let found : Except Fault Found := do
    let (whole, rest) ← readWhole rest
    let (fraction, rest) ← readFraction rest
    let (power, rest) ← readPower rest
    return (numberValue r negative whole fraction power, some rest)
  match found with
  | .ok found => found
  | .error f => (.broken f, none)

/-- The rest of a literal, of which `expected` is still to come. -/
def readLiteral (value : Json) : List Char → List Char → Found
  | [], rest => (value, some rest)
  | _ :: _, [] => (.broken .endInValue, none)
  | e :: expected, c :: rest =>
    if c = e then readLiteral value expected rest else (.broken .expectedIdent, none)

mutual

def readValue (fuel : Nat) (cs : List Char) : Found :=
  match fuel, cs with
  | 0, _ | _, [] => (.fault .endInValue, none)
  | fuel + 1, c :: rest =>
    if c = 'n' then readLiteral .null "ull".toList rest
    else if c = 't' then readLiteral (.bool true) "rue".toList rest
    else if c = 'f' then readLiteral (.bool false) "alse".toList rest
    else if c = '"' then readString rest
    else if c = '[' then readList fuel (skipSpace rest)
    else if c = '\x7b' then readObject fuel (skipSpace rest)
    else if c = '-' || c.isDigit then readNumber r cs
    else (.fault .expectedValue, none)

def readList (fuel : Nat) (cs : List Char) : Found :=
  match fuel, cs with
  | 0, _ | _, [] => (.array [.fault .endInList], none)
  | _, ']' :: rest => (.array [], some rest)
  | fuel + 1, cs =>
    let (items, rest) := readItems fuel cs
    (.array items, rest)

def readItems (fuel : Nat) (cs : List Char) : List Json × Option (List Char) :=
  match fuel with
  | 0 => ([.fault .endInList], none)
  | fuel + 1 =>
    match readValue fuel cs with
    | (item, none) => ([item], none)
    | (item, some rest) =>
      match skipSpace rest with
      | [] => ([item, .fault .endInList], none)
      | ']' :: rest => ([item], some rest)
      | ',' :: rest =>
        match skipSpace rest with
        | ']' :: _ => ([item, .fault .trailingComma], none)
        | rest =>
          let (items, rest) := readItems fuel rest
          (item :: items, rest)
      | _ => ([item, .fault .expectedListEnd], none)

def readObject (fuel : Nat) (cs : List Char) : Found :=
  match fuel, cs with
  | 0, _ | _, [] => (.object [(.fault .endInObject, .null)], none)
  | _, '\x7d' :: rest => (.object [], some rest)
  | fuel + 1, cs =>
    let (members, rest) := readMembers fuel cs
    (.object members, rest)

/-- The members of an object from the next one on. Whatever stands in place of a key is read, but
only a string is followed further. -/
def readMembers (fuel : Nat) (cs : List Char) : List (Json × Json) × Option (List Char) :=
  match fuel, cs with
  | 0, _ | _, [] => ([(.fault .endInValue, .null)], none)
  | fuel + 1, '"' :: rest =>
    match readString rest with
    | (key, none) => ([(key, .null)], none)
    | (key, some rest) =>
      match skipSpace rest with
      | [] => ([(key, .fault .endInObject)], none)
      | ':' :: rest =>
        match readValue fuel (skipSpace rest) with
        | (value, none) => ([(key, value)], none)
        | (value, some rest) =>
          match skipSpace rest with
          | [] => ([(key, value), (.fault .endInObject, .null)], none)
          | '\x7d' :: rest => ([(key, value)], some rest)
          | ',' :: rest =>
            match skipSpace rest with
            | '\x7d' :: _ => ([(key, value), (.fault .trailingComma, .null)], none)
            | rest =>
              let (members, rest) := readMembers fuel rest
              ((key, value) :: members, rest)
          | _ => ([(key, value), (.fault .expectedObjectEnd, .null)], none)
      | _ => ([(key, .fault .expectedColon)], none)
  | fuel + 1, cs => ([((readValue fuel cs).1, .null)], none)

end

structure Document where
  root : Json
  trailing : Bool

def readChars (cs : List Char) : Document :=
  match readValue r (3 * (cs.length + 1)) (skipSpace cs) with
  | (root, none) => ⟨root, false⟩
  | (root, some rest) => ⟨root, skipSpace rest != []⟩

/-- Texts are read with the rounding in steps. -/
def read (s : String) : Document := readChars .stepwise s.toList

end Montage.Json
