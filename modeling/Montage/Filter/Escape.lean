import Montage.Binary64.Decimal
import Montage.Text.Blank
import Montage.Text.Quoted

/-! User content in a filter graph. A text passes three readers before it is drawn, each with
characters of its own: text expansion (`\` and `%`), the options of a filter (`\`, `'` and `:`) and the
graph, where quotes make everything up to the next quote literal. Escaping serves the three in this
order. Values that stand outside quotes are not escaped but have to be free of such characters. -/
namespace Montage

inductive EscapeError where
  | empty
  | unsupportedCharacter (c : Char) (index : Nat)
  | invalidFontFamily (family : String)
  | invalidColor (color : String)
  | invalidFontPath (path : String)
deriving DecidableEq

def EscapeError.message : EscapeError → String
  | empty => "text is empty"
  | unsupportedCharacter c index =>
    "unsupported character " ++ Text.quoteChar c ++ " at position " ++ Numeral.text index
  | invalidFontFamily family => "invalid font family: " ++ Text.quote family
  | invalidColor color => "invalid color: " ++ Text.quote color
  | invalidFontPath path =>
    "font path " ++ Text.quote path ++ " contains a filter graph delimiter"

namespace Filter

def escape (special : List Char) (cs : List Char) : List Char :=
  cs.flatMap fun c => if c ∈ special then ['\\', c] else [c]

def expansionSpecial : List Char := ['\\', '%']

def optionSpecial : List Char := ['\\', '\'', ':']

/-- The first control character and its place, counted in characters. -/
def firstControl? : List Char → Option (Char × Nat)
  | [] => none
  | c :: cs =>
    if Text.isControl c then some (c, 0) else (firstControl? cs).map fun (d, i) => (d, i + 1)

def escapeText (s : String) : Except EscapeError String :=
  let cs := s.toList
  if cs = [] then .error .empty
  else match firstControl? cs with
    | some (c, index) => .error (.unsupportedCharacter c index)
    | none => .ok (String.ofList (Text.singleQuoted (escape optionSpecial (escape expansionSpecial cs))))

/-- The characters that end or escape a value outside quotes. -/
def pathReserved : List Char := ['\\', '\'', ':', ',', ';', '[', ']']

/-- A font path is not empty and holds no control and no reserved character. -/
def checkFontPath (path : String) : Except EscapeError Unit :=
  let cs := path.toList
  if cs = [] ∨ cs.any fun c => Text.isControl c || c ∈ pathReserved then
    .error (.invalidFontPath path)
  else .ok ()

def isFamilyChar (c : Char) : Bool := c.isAlphanum || c = ' ' || c = '_' || c = '-'

/-- A font family is not blank and consists of ASCII letters, digits, spaces, `_` and `-`. -/
def checkFontFamily (family : String) : Except EscapeError Unit :=
  let cs := family.toList
  if Text.trim cs = [] ∨ !cs.all isFamilyChar then .error (.invalidFontFamily family) else .ok ()

def isHexDigit (c : Char) : Bool := c.isDigit || 'a' ≤ c && c ≤ 'f' || 'A' ≤ c && c ≤ 'F'

/-- The part of a color before `@`: a name, or six or eight hexadecimal digits after `#` or `0x`. -/
def isBaseColor (cs : List Char) : Bool :=
  let isHex (ds : List Char) : Bool := (ds.length = 6 || ds.length = 8) && ds.all isHexDigit
  match cs with
  | '#' :: ds | '0' :: 'x' :: ds | '0' :: 'X' :: ds => isHex ds
  | _ => cs ≠ [] && cs.all Char.isAlpha

/-- The part of a color after `@`: a number from zero to one. -/
def isAlpha (cs : List Char) : Bool :=
  match Binary64.readChars? cs with
  | some x => Binary64.le 0 x && x.le 1
  | none => false

def isColor (cs : List Char) : Bool :=
  match Text.splitFirst? '@' cs with
  | some (base, alpha) => isBaseColor base && isAlpha alpha
  | none => isBaseColor cs

def checkColor (color : String) : Except EscapeError Unit :=
  if isColor color.toList then .ok () else .error (.invalidColor color)

end Filter
end Montage
