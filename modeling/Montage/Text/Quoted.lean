import Montage.Text.Printable

/-! Quoted text for messages: the quote, the backslash, tab, line ends and the null character are
written as escapes, characters that would not show by their number, and the rest as they are. Text for
readers that know no escape inside single quotes is quoted with those. -/
namespace Montage.Text

def hexDigits (n : Nat) : List Char := Nat.toDigits 16 n

def quotedChar (quote : Char) (c : Char) : List Char :=
  if c = '\t' then ['\\', 't']
  else if c = '\r' then ['\\', 'r']
  else if c = '\n' then ['\\', 'n']
  else if c.toNat = 0 then ['\\', '0']
  else if c = '\\' ∨ c = quote then ['\\', c]
  else if isPrintable c then [c]
  else ['\\', 'u', '\x7b'] ++ hexDigits c.toNat ++ ['\x7d']

def quote (s : String) : String :=
  String.ofList ('"' :: s.toList.flatMap (quotedChar '"') ++ ['"'])

def quoteChar (c : Char) : String := String.ofList ('\'' :: quotedChar '\'' c ++ ['\''])

/-- The same for a path, in which single quotes are escaped too. -/
def quotePath (s : String) : String :=
  let shown (c : Char) : List Char := if c = '\'' then ['\\', c] else quotedChar '"' c
  String.ofList ('"' :: s.toList.flatMap shown ++ ['"'])

/-- A text between single quotes; a quote in it closes them, stands escaped and opens them again. -/
def singleQuoted (cs : List Char) : List Char :=
  '\'' :: cs.flatMap (fun c => if c = '\'' then ['\'', '\\', '\'', '\''] else [c]) ++ ['\'']

end Montage.Text
