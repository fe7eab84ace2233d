import Montage.Edit.Error

/-! The containers a render can be written to. -/
namespace Montage

inductive Format where
  | mp4
  | mov
  | mkv
  | avi
  | flv
  | webm
deriving DecidableEq, Repr

namespace Format

def all : List Format := [mp4, mov, mkv, avi, flv, webm]

def extension : Format → String
  | mp4 => "mp4"
  | mov => "mov"
  | mkv => "mkv"
  | avi => "avi"
  | flv => "flv"
  | webm => "webm"

def mimeType : Format → String
  | mp4 => "video/mp4"
  | mov => "video/quicktime"
  | mkv => "video/x-matroska"
  | avi => "video/x-msvideo"
  | flv => "video/x-flv"
  | webm => "video/webm"

def mimeTypeFamily (f : Format) : String :=
  String.ofList (f.mimeType.toList.takeWhile (· ≠ '/'))

/-- Reads an extension in any letter case, with or without points before it, ignoring white space
around it. -/
def parse (s : String) : Except EditError Format :=
  let name := ((Text.trim s.toList).dropWhile (· = '.')).map Text.lower
  match all.find? (·.extension.toList = name) with
  | some f => .ok f
  | none => .error (.unknownFormat s)

end Format
end Montage
