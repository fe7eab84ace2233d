import Montage.Edit.Basic
import Montage.Json.Decode
import Montage.Json.Layer
import Montage.Overlay.Patch

/-! The JSON form of an edit and of the patches of its overlays. Each record lists its fields in
declaration order; reading and writing use the same names. -/
namespace Montage

open Json (RecordField Record Decoder)

namespace Position

def xField : RecordField Binary64 := { name := "x", decode := Json.asFloat }
def yField : RecordField Binary64 := { name := "y", decode := Json.asFloat }

def record : Record Position where
  name := "Position"
  entries := [xField.entry, yField.entry]
  build members := do return ⟨← xField.get members, ← yField.get members⟩

def toJson (p : Position) : Json := .ofMembers [("x", .ofFloat p.x), ("y", .ofFloat p.y)]

end Position

namespace Size

def widthField : RecordField Binary64 := { name := "width", decode := Json.asFloat }
def heightField : RecordField Binary64 := { name := "height", decode := Json.asFloat }

def record : Record Size where
  name := "Size"
  entries := [widthField.entry, heightField.entry]
  build members := do return ⟨← widthField.get members, ← heightField.get members⟩

def toJson (s : Size) : Json := .ofMembers [("width", .ofFloat s.width), ("height", .ofFloat s.height)]

end Size

namespace TextOverlay

def idField : RecordField OverlayId := { name := "id", decode := Json.asString }
def textField : RecordField String := { name := "text", decode := Json.asString }
def fontFamilyField : RecordField String :=
  { name := "font_family", decode := Json.asString, default? := some "arial" }
def fontSizeField : RecordField Nat :=
  { name := "font_size_px", decode := Json.asWord, default? := some 24 }
def colorField : RecordField String :=
  { name := "color", decode := Json.asString, default? := some "black" }
def positionField : RecordField Position :=
  { name := "position", decode := Position.record.decode, default? := some Position.origin }
def sizeField : RecordField Size :=
  { name := "size", decode := Size.record.decode, default? := some Size.textBox }
def visibleFromField : RecordField Binary64 := { name := "visible_from", decode := Json.asFloat }
def visibleUntilField : RecordField Binary64 := { name := "visible_until", decode := Json.asFloat }

def record : Record TextOverlay where
  name := "TextOverlay"
  entries := [idField.entry, textField.entry, fontFamilyField.entry, fontSizeField.entry,
    colorField.entry, positionField.entry, sizeField.entry, visibleFromField.entry,
    visibleUntilField.entry]
  build members := do
    return {
      id := ← idField.get members
      text := ← textField.get members
      fontFamily := ← fontFamilyField.get members
      fontSize := ← fontSizeField.get members
      color := ← colorField.get members
      position := ← positionField.get members
      size := ← sizeField.get members
      visibleFrom := ← visibleFromField.get members
      visibleUntil := ← visibleUntilField.get members }

def toJson (o : TextOverlay) : Json :=
  .ofMembers [("id", .string o.id), ("text", .string o.text), ("font_family", .string o.fontFamily),
    ("font_size_px", .ofNat o.fontSize), ("color", .string o.color),
    ("position", o.position.toJson), ("size", o.size.toJson),
    ("visible_from", .ofFloat o.visibleFrom), ("visible_until", .ofFloat o.visibleUntil)]

end TextOverlay

namespace ImageOverlay

def idField : RecordField OverlayId := { name := "id", decode := Json.asString }
def imageField : RecordField AssetId := { name := "image_ref", decode := Json.asString }
def positionField : RecordField Position :=
  { name := "position", decode := Position.record.decode, default? := some Position.origin }
def sizeField : RecordField Size := { name := "size", decode := Size.record.decode }
def visibleFromField : RecordField Binary64 := { name := "visible_from", decode := Json.asFloat }
def visibleUntilField : RecordField Binary64 := { name := "visible_until", decode := Json.asFloat }

def record : Record ImageOverlay where
  name := "ImageOverlay"
  entries := [idField.entry, imageField.entry, positionField.entry, sizeField.entry,
    visibleFromField.entry, visibleUntilField.entry]
  build members := do
    return {
      id := ← idField.get members
      image := ← imageField.get members
      position := ← positionField.get members
      size := ← sizeField.get members
      visibleFrom := ← visibleFromField.get members
      visibleUntil := ← visibleUntilField.get members }

def toJson (o : ImageOverlay) : Json :=
  .ofMembers [("id", .string o.id), ("image_ref", .string o.image), ("position", o.position.toJson),
    ("size", o.size.toJson), ("visible_from", .ofFloat o.visibleFrom),
    ("visible_until", .ofFloat o.visibleUntil)]

end ImageOverlay

namespace TrimRange

def startField : RecordField Binary64 := { name := "start", decode := Json.asFloat }
def stopField : RecordField Binary64 := { name := "end", decode := Json.asFloat }

def record : Record TrimRange where
  name := "TrimRange"
  entries := [startField.entry, stopField.entry]
  build members := do return ⟨← startField.get members, ← stopField.get members⟩

def toJson (t : TrimRange) : Json := .ofMembers [("start", .ofFloat t.start), ("end", .ofFloat t.stop)]

end TrimRange

namespace SourceAsset

def assetField : RecordField AssetId := { name := "asset_id", decode := Json.asString }
def fileNameField : RecordField String := { name := "file_name", decode := Json.asString }
def contentTypeField : RecordField (Option String) :=
  { name := "content_type", decode := Json.asOption Json.asString, default? := some none }

def record : Record SourceAsset where
  name := "SourceAsset"
  entries := [assetField.entry, fileNameField.entry, contentTypeField.entry]
  build members := do
    return ⟨← assetField.get members, ← fileNameField.get members, ← contentTypeField.get members⟩

/-- A content type that is not known is left out. -/
def toJson (s : SourceAsset) : Json :=
  .ofMembers ([("asset_id", .string s.asset), ("file_name", .string s.fileName)] ++
    s.contentType.toList.map fun t => ("content_type", .string t))

end SourceAsset

namespace Format

def decode : Decoder Format := Json.asVariant (all.map fun f => (f.extension, f))

def toJson (f : Format) : Json := .string f.extension

end Format

namespace Edit

def trimField : RecordField TrimRange := { name := "trim", decode := TrimRange.record.decode }
def imagesField : RecordField (List ImageOverlay) :=
  { name := "image_overlays", decode := Json.asList ImageOverlay.record.decode, default? := some [] }
def textsField : RecordField (List TextOverlay) :=
  { name := "text_overlays", decode := Json.asList TextOverlay.record.decode, default? := some [] }
def sourceField : RecordField SourceAsset := { name := "source", decode := SourceAsset.record.decode }
def formatField : RecordField Format :=
  { name := "output_format", decode := Format.decode, default? := some .mp4 }

def record : Record Edit where
  name := "EditSpec"
  entries := [trimField.entry, imagesField.entry, textsField.entry, sourceField.entry,
    formatField.entry]
  build members := do
    return {
      trim := ← trimField.get members
      images := ← imagesField.get members
      texts := ← textsField.get members
      source := ← sourceField.get members
      format := ← formatField.get members }

def ofJson : Decoder Edit := record.decode

def toJson (e : Edit) : Json :=
  .ofMembers [("trim", e.trim.toJson), ("image_overlays", .array (e.images.map ImageOverlay.toJson)),
    ("text_overlays", .array (e.texts.map TextOverlay.toJson)), ("source", e.source.toJson),
    ("output_format", e.format.toJson)]

def readBy (layer : Json.TextLayer) (s : String) : Except Json.Problem Edit :=
  (layer.read s).decode ofJson

def read (s : String) : Except Json.Problem Edit := readBy .standard s

end Edit

/-- A field that may be null or missing. A list has to name it. -/
def patchField (name : String) (decode : Decoder α) : RecordField (Option α) where
  name := name
  decode := Json.asOption decode
  default? := some none
  listDefault := false

namespace TextPatch

def textField : RecordField (Option String) := patchField "text" Json.asString
def fontFamilyField : RecordField (Option String) := patchField "font_family" Json.asString
def fontSizeField : RecordField (Option Nat) := patchField "font_size_px" Json.asWord
def colorField : RecordField (Option String) := patchField "color" Json.asString
def positionField : RecordField (Option Position) := patchField "position" Position.record.decode
def sizeField : RecordField (Option Size) := patchField "size" Size.record.decode
def visibleFromField : RecordField (Option Binary64) := patchField "visible_from" Json.asFloat
def visibleUntilField : RecordField (Option Binary64) := patchField "visible_until" Json.asFloat

def record : Record TextPatch where
  name := "TextOverlayPatch"
  entries := [textField.entry, fontFamilyField.entry, fontSizeField.entry, colorField.entry,
    positionField.entry, sizeField.entry, visibleFromField.entry, visibleUntilField.entry]
  build members := do
    return {
      text := ← textField.get members
      fontFamily := ← fontFamilyField.get members
      fontSize := ← fontSizeField.get members
      color := ← colorField.get members
      position := ← positionField.get members
      size := ← sizeField.get members
      visibleFrom := ← visibleFromField.get members
      visibleUntil := ← visibleUntilField.get members }

end TextPatch

namespace ImagePatch

def imageField : RecordField (Option AssetId) := patchField "image_ref" Json.asString
def positionField : RecordField (Option Position) := patchField "position" Position.record.decode
def sizeField : RecordField (Option Size) := patchField "size" Size.record.decode
def visibleFromField : RecordField (Option Binary64) := patchField "visible_from" Json.asFloat
def visibleUntilField : RecordField (Option Binary64) := patchField "visible_until" Json.asFloat

def record : Record ImagePatch where
  name := "ImageOverlayPatch"
  entries := [imageField.entry, positionField.entry, sizeField.entry, visibleFromField.entry,
    visibleUntilField.entry]
  build members := do
    return {
      image := ← imageField.get members
      position := ← positionField.get members
      size := ← sizeField.get members
      visibleFrom := ← visibleFromField.get members
      visibleUntil := ← visibleUntilField.get members }

end ImagePatch
end Montage
