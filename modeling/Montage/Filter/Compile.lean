import Montage.Filter.Graph
import Montage.Render.Error
import Montage.Render.Metric

/-! From overlays to a filter graph. Images are scaled and drawn first, texts over them, each within
its window. All overlays are checked before anything is drawn. -/
namespace Montage

/-- An image among the inputs of a command, numbered from one since the source is number zero. -/
structure ImageInput where
  overlay : ImageOverlay
  index : Nat
deriving DecidableEq

namespace ImageInput

/-- The name that the bytes are stored under for a run. Overlay ids may be any text and are no part
of it. -/
def fileName (i : ImageInput) : String := "overlay" ++ Numeral.text i.index ++ ".png"

def ofOverlays (images : List ImageOverlay) : List ImageInput :=
  (images.zipIdx 1).map fun (o, n) => ⟨o, n⟩

end ImageInput

namespace Filter

def fontFile (fontDir family : String) : String :=
  if fontDir.toList.getLast? = some '/' then fontDir ++ family ++ ".ttf"
  else fontDir ++ "/" ++ family ++ ".ttf"

/-- A text that is ready to be drawn: its content escaped, its font found by a safe path. -/
structure Lettering where
  fontFile : String
  text : String
  color : String
  fontSize : Nat
  position : Position
  gate : TimeGate

/-- Checks a text overlay, its font family, color, content and font file, in this order. -/
def letter (fontDir : String) (o : TextOverlay) : Except RenderError Lettering := do
  o.validate.mapError .invalidEdit
  (checkFontFamily o.fontFamily).mapError (.escape o.id)
  (checkColor o.color).mapError (.escape o.id)
  let text ← (escapeText o.text).mapError (.escape o.id)
  let file := fontFile fontDir o.fontFamily
  (checkFontPath file).mapError (.escape o.id)
  return ⟨file, text, o.color, o.fontSize, o.position, ⟨o.visibleFrom, o.visibleUntil⟩⟩

def Lettering.statement (l : Lettering) (base : Pad) (output : Option Pad) : Statement :=
  .drawText base l.fontFile l.text l.color l.fontSize l.position l.gate output

def imageStatements (o : ImageOverlay) (input scaled base : Pad) (output : Option Pad) :
    List Statement :=
  [.scale input scaled o.size,
    .overlay base scaled o.position ⟨o.visibleFrom, o.visibleUntil⟩ output]

def drawSteps : List Step → List ImageInput → List Lettering → Except RenderError (List Statement)
  | [], _, _ => .ok []
  | ⟨.image input scaled, base, output⟩ :: steps, image :: images, texts => do
    let rest ← drawSteps steps images texts
    return imageStatements image.overlay input scaled base output ++ rest
  | ⟨.text, base, output⟩ :: steps, images, text :: texts => do
    let rest ← drawSteps steps images texts
    return text.statement base output :: rest
  | ⟨.image .., _, _⟩ :: _, [], _ => .error (.internal "pad plan has more image steps than images")
  | ⟨.text, _, _⟩ :: _, _, [] => .error (.internal "pad plan has more text steps than texts")

def checkImages : List ImageInput → Except RenderError Unit
  | [] => .ok ()
  | image :: images => do
    image.overlay.validate.mapError .invalidEdit
    checkImages images

def letterAll (fontDir : String) : List TextOverlay → Except RenderError (List Lettering)
  | [] => .ok []
  | o :: rest => do
    let l ← letter fontDir o
    return l :: (← letterAll fontDir rest)

/-- The graph that draws the images and texts, or the first problem with one of them. -/
def graphOf (fontDir : String) (images : List ImageInput) (texts : List TextOverlay) :
    Except RenderError Graph := do
  checkImages images
  let letters ← letterAll fontDir texts
  return ⟨← drawSteps (planSteps images.length texts.length) images letters⟩

/-- A graph is counted when it is complete. -/
def compile (fontDir : String) (images : List ImageInput) (texts : List TextOverlay) :
    Measured (Except RenderError Graph) :=
  match graphOf fontDir images texts with
  | .ok graph => ⟨.ok graph, [.graphCompiled]⟩
  | .error e => ⟨.error e, []⟩

end Filter
end Montage
