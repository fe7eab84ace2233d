import Montage.Edit.Error

/-! Output settings tuned for the sharing platforms. -/
namespace Montage

inductive Preset where
  /-- Small enough for a status, which may have nine megabytes. -/
  | whatsappStatus
  /-- High-profile video at thirty frames a second. -/
  | twitter
deriving DecidableEq, Repr

namespace Preset

def name : Preset → String
  | whatsappStatus => "whatsapp_status"
  | twitter => "twitter"

def arguments : Preset → List String
  | whatsappStatus =>
    ["-c:v", "libx264", "-preset", "veryfast", "-crf", "35", "-c:a", "aac", "-b:a", "64k",
      "-movflags", "faststart", "-maxrate", "1000k", "-bufsize", "1000k", "-fs", "9M"]
  | twitter =>
    ["-c:v", "libx264", "-profile:v", "high", "-level:v", "4.2", "-pix_fmt", "yuv420p", "-r", "30",
      "-c:a", "aac", "-b:a", "192k", "-movflags", "faststart", "-maxrate", "5000k",
      "-bufsize", "5000k", "-tune", "film"]

def parse (s : String) : Except EditError Preset :=
  let name := String.ofList (s.toList.map Text.lower)
  if name = "whatsapp_status" ∨ name = "whatsapp" then .ok whatsappStatus
  else if name = "twitter" ∨ name = "x" then .ok twitter
  else .error (.unknownPreset s)

end Preset
end Montage
