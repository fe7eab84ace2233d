import Montage.Command.Assembly
import Montage.Job.Error

/-! The settings of the program, which come from its environment. -/
namespace Montage

structure Config where
  workDir : String := "/tmp/vedit"
  assetDir : String := "/tmp/vedit/assets"
  fontDir : String := "/"
  suffix : String := "1"
  /-- The seconds that a run may take, if there is a limit. -/
  timeout : Option Nat := some 3600
  logLevel : String := "error"
deriving DecidableEq

namespace Config

/-- A timeout that cannot be read is the default, and zero is none. -/
def readTimeout (default : Option Nat) (text : String) : Option Nat :=
  match Numeral.readUnsigned? text.toList with
  | some 0 => none
  | some seconds => some seconds
  | none => default

def ofLookup (lookup : String → Option String) : Config :=
  let d : Config := {}
  { workDir := (lookup "VEDIT_WORK_DIR").getD d.workDir
    assetDir := (lookup "VEDIT_ASSET_DIR").getD d.assetDir
    fontDir := (lookup "VEDIT_FONT_DIR").getD d.fontDir
    suffix := (lookup "VEDIT_OUTPUT_SUFFIX").getD d.suffix
    timeout := ((lookup "VEDIT_FFMPEG_TIMEOUT_SECS").map (readTimeout d.timeout)).getD d.timeout
    logLevel := (lookup "VEDIT_FFMPEG_LOG_LEVEL").getD d.logLevel }

def logLevels : List String :=
  ["quiet", "panic", "fatal", "error", "warning", "info", "verbose", "debug", "trace"]

def isSafeFontDir (dir : String) : Bool :=
  match Filter.checkFontPath dir with
  | .ok () => true
  | .error _ => false

def validate (c : Config) : Except JobError Unit :=
  if c.suffix = "" then .error (.config "VEDIT_OUTPUT_SUFFIX must not be empty")
  else if '/' ∈ c.suffix.toList then .error (.config "VEDIT_OUTPUT_SUFFIX must not contain '/'")
  else if !isSafeFontDir c.fontDir then
    .error (.config ("VEDIT_FONT_DIR must not contain '\\', quotes, ':', ',', ';' or brackets: " ++
      c.fontDir))
  else if c.logLevel ∉ logLevels then
    .error (.config ("unknown FFmpeg log level: " ++ c.logLevel))
  else .ok ()

def assemblyOptions (c : Config) : AssemblyOptions := ⟨c.suffix, c.fontDir⟩

end Config
end Montage
