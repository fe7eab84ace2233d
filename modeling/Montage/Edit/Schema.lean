import Montage.Edit.Document

/-! The JSON schema of an edit. Properties and required names stand in alphabetical order, and every
record but the edit itself is a definition of its own. -/
namespace Montage.Edit

open Json (ofMembers)

namespace Schema

def number : List (String × Json) := [("type", .string "number"), ("format", .string "double")]

def text : List (String × Json) := [("type", .string "string")]

def described (description : String) (type : List (String × Json)) : List (String × Json) :=
  ("description", .string description) :: type

def withDefault (default : Json) (type : List (String × Json)) : List (String × Json) :=
  ("default", default) :: type

def reference (name : String) : List (String × Json) :=
  [("$ref", .string ("#/definitions/" ++ name))]

/-- A default beside a reference, which may hold no other key. -/
def referenceWithDefault (default : Json) (name : String) : List (String × Json) :=
  [("default", default), ("allOf", .array [ofMembers (reference name)])]

def listOf (name : String) : List (String × Json) :=
  [("default", .array []), ("type", .string "array"), ("items", ofMembers (reference name))]

def object (required : List String) (properties : List (String × List (String × Json))) :
    List (String × Json) :=
  [("type", .string "object"), ("required", .ofStrings required),
    ("properties", ofMembers (properties.map fun (name, type) => (name, ofMembers type)))]

def origin : Json := Position.origin.toJson

/-- The default box of a text, its keys in alphabetical order. -/
def textBox : Json :=
  ofMembers [("height", .ofFloat Size.textBox.height), ("width", .ofFloat Size.textBox.width)]

def imageOverlay : List (String × Json) :=
  described "A timed image element composited onto the video." (object
    ["id", "image_ref", "size", "visible_from", "visible_until"]
    [("id", text),
      ("image_ref", described "Handle to the image bytes in the asset store" text),
      ("position", referenceWithDefault origin "Position"),
      ("size", reference "Size"),
      ("visible_from", number),
      ("visible_until", number)])

def outputFormat : List (String × Json) :=
  described "Container format of the rendered video."
    (text ++ [("enum", .ofStrings (Format.all.map Format.extension))])

def position : List (String × Json) :=
  described "Top-left corner of an overlay, in source pixels."
    (object ["x", "y"] [("x", number), ("y", number)])

def size : List (String × Json) :=
  described "Box size of an overlay, in source pixels."
    (object ["height", "width"] [("height", number), ("width", number)])

def sourceAsset : List (String × Json) :=
  described "The uploaded source video." (object ["asset_id", "file_name"]
    [("asset_id", described "Where the bytes live in the asset store" text),
      ("content_type", [("type", .ofStrings ["string", "null"])]),
      ("file_name",
        described "Original upload name; the output name is derived from it" text)])

def textOverlay : List (String × Json) :=
  described "A timed text element burned into the video." (object
    ["id", "text", "visible_from", "visible_until"]
    [("color", withDefault (.string "black") text),
      ("font_family", withDefault (.string "arial") text),
      ("font_size_px", withDefault (.ofNat 24)
        [("type", .string "integer"), ("format", .string "uint32"), ("minimum", .ofFloat 0)]),
      ("id", text),
      ("position", referenceWithDefault origin "Position"),
      ("size", referenceWithDefault textBox "Size"),
      ("text", text),
      ("visible_from", described "Source-timeline second at which the text appears" number),
      ("visible_until", described "Source-timeline second at which the text disappears" number)])

def trimRange : List (String × Json) :=
  described "The retained sub-range of the source, in source seconds."
    (object ["end", "start"] [("end", number), ("start", number)])

end Schema

open Schema in
def schema : Json :=
  let properties := object ["source", "trim"]
    [("image_overlays", listOf "ImageOverlay"),
      ("output_format", referenceWithDefault Format.mp4.toJson "OutputFormat"),
      ("source", reference "SourceAsset"),
      ("text_overlays", listOf "TextOverlay"),
      ("trim", reference "TrimRange")]
  let definitions := [("ImageOverlay", imageOverlay), ("OutputFormat", outputFormat),
    ("Position", position), ("Size", size), ("SourceAsset", sourceAsset),
    ("TextOverlay", textOverlay), ("TrimRange", trimRange)]
  ofMembers ([("$schema", .string "http://json-schema.org/draft-07/schema#"),
    ("title", .string "EditSpec"),
    ("description", .string ("Everything needed to compile one render command.\n\n" ++
      "Image overlays always composite before text overlays; within each list, " ++
      "order is stacking order."))] ++
    properties ++
    [("definitions", ofMembers (definitions.map fun (name, type) => (name, ofMembers type)))])

end Montage.Edit
