import Montage.Timestamp

/-! What can be wrong with an edit. -/
namespace Montage

abbrev OverlayId := String

inductive EditError where
  | invalidTrim (start stop : Binary64)
  | invalidVisibility (id : OverlayId) (start stop : Binary64)
  | zeroFontSize (id : OverlayId)
  | invalidSize (id : OverlayId) (width height : Binary64)
  | invalidPosition (id : OverlayId) (x y : Binary64)
  | duplicateOverlay (id : OverlayId)
  | overlayNotFound (id : OverlayId)
  | unknownFormat (name : String)
  | unknownPreset (name : String)
  | timestamp (cause : TimestampError)
deriving DecidableEq

def EditError.message : EditError → String
  | invalidTrim start stop => s!"Invalid trim range: start {start}s, end {stop}s"
  | invalidVisibility id start stop =>
    s!"Overlay {id} has an invalid visibility window: {start}s to {stop}s"
  | zeroFontSize id => s!"Overlay {id} has a zero font size"
  | invalidSize id width height => s!"Overlay {id} has an invalid size: {width}x{height}"
  | invalidPosition id x y => s!"Overlay {id} has an invalid position: ({x}, {y})"
  | duplicateOverlay id => s!"Overlay already exists: {id}"
  | overlayNotFound id => s!"Overlay not found: {id}"
  | unknownFormat name => s!"Unknown output format: {name}"
  | unknownPreset name => s!"Unknown compression preset: {name}"
  | timestamp cause => s!"Invalid timestamp: {cause.message}"

end Montage
