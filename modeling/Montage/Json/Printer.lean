import Montage.Json.Numeral

/-! Writing JSON text, in one line or indented by two spaces. Leaves that stand for a faulty text have
no written form and come out as null. -/
namespace Montage.Json

def hexFour (n : Nat) : List Char :=
  let ds := Nat.toDigits 16 n
  List.replicate (4 - ds.length) '0' ++ ds

/-- One character of a string: quotes, backslashes and controls are escaped. -/
def escapedChar (c : Char) : List Char :=
  if c = '"' then ['\\', '"']
  else if c = '\\' then ['\\', '\\']
  else if c = '\n' then ['\\', 'n']
  else if c = '\r' then ['\\', 'r']
  else if c = '\t' then ['\\', 't']
  else if c = '\x08' then ['\\', 'b']
  else if c = '\x0c' then ['\\', 'f']
  else if c.toNat < 0x20 then '\\' :: 'u' :: hexFour c.toNat
  else [c]

def stringText (s : String) : String :=
  String.ofList ('"' :: s.toList.flatMap escapedChar ++ ['"'])

mutual

def compact : Json → String
  | .bool b => if b then "true" else "false"
  | .number n => numberText n
  | .string s => stringText s
  | .array items => "[" ++ ",".intercalate (compactItems items) ++ "]"
  | .object members => "\x7b" ++ ",".intercalate (compactMembers members) ++ "\x7d"
  | _ => "null"

def compactItems : List Json → List String
  | [] => []
  | item :: items => compact item :: compactItems items

def compactMembers : List (Json × Json) → List String
  | [] => []
  | member :: members => compactMember member :: compactMembers members

def compactMember : Json × Json → String
  | (key, value) => compact key ++ ":" ++ compact value

end

/-- Parts on lines of their own between brackets, or the brackets alone. -/
def block (opening closing margin : String) (parts : List String) : String :=
  if parts = [] then opening ++ closing
  else
    let inner := "\n" ++ margin ++ "  "
    opening ++ inner ++ ("," ++ inner).intercalate parts ++ "\n" ++ margin ++ closing

mutual

def indented (margin : String) : Json → String
  | .bool b => if b then "true" else "false"
  | .number n => numberText n
  | .string s => stringText s
  | .array items => block "[" "]" margin (indentedItems (margin ++ "  ") items)
  | .object members => block "\x7b" "\x7d" margin (indentedMembers (margin ++ "  ") members)
  | _ => "null"

def indentedItems (margin : String) : List Json → List String
  | [] => []
  | item :: items => indented margin item :: indentedItems margin items

def indentedMembers (margin : String) : List (Json × Json) → List String
  | [] => []
  | member :: members => indentedMember margin member :: indentedMembers margin members

def indentedMember (margin : String) : Json × Json → String
  | (key, value) => indented margin key ++ ": " ++ indented margin value

end

def pretty (j : Json) : String := indented "" j

end Montage.Json
