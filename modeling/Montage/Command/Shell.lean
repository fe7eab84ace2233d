import Montage.Command.Basic
import Montage.Text.Quoted

/-! A command as a line that can be typed into a shell. -/
namespace Montage

namespace Shell

def isPlain (c : Char) : Bool := c.isAlphanum || "-_./:=%,+@".toList.contains c

/-- One word of a command line, quoted unless all of it is plain. -/
def word (cs : List Char) : List Char :=
  if cs ≠ [] ∧ cs.all isPlain then cs else Text.singleQuoted cs

def line (words : List String) : String :=
  String.ofList ([' '].intercalate (words.map fun w => word w.toList))

end Shell

/-- The command line without the options that only a run needs. -/
def Command.line (c : Command) : String := Shell.line ("ffmpeg" :: c.arguments)

end Montage
