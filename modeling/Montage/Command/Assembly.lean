import Montage.Command.Basic
import Montage.Command.Naming
import Montage.Edit.Basic
import Montage.Filter.Compile
import Montage.Preset

/-! From an edit to a command. Every path in the command is a bare file name: it is run in a directory
that holds its inputs under exactly these names. -/
namespace Montage

structure AssemblyOptions where
  /-- What the name of the output has more than that of the source. -/
  suffix : String := "1"
  fontDir : String := "/"
deriving DecidableEq

structure EditCommand where
  source : String
  images : List ImageInput
  graph : Filter.Graph
  trim : TrimRange
  format : Format
  output : String
deriving DecidableEq

namespace EditCommand

open Timestamp (formatSeconds)

def addImages (c : Command) (images : List ImageInput) : Command :=
  images.foldl (fun c i => c.addInput i.fileName) c

/-- The command for the engine. An empty graph is left out. -/
def toCommand (e : EditCommand) : Command :=
  let inputs := addImages (Command.ofPaths e.source e.output) e.images
  let drawn := if e.graph.isEmpty then inputs else inputs.filterGraph e.graph.text
  (drawn.startAt (formatSeconds e.trim.start)).stopAt (formatSeconds e.trim.stop)

def arguments (e : EditCommand) : List String := e.toCommand.arguments

end EditCommand

/-- The names of the source and the output of a valid edit, which must differ. -/
def Edit.names (e : Edit) (o : AssemblyOptions) : Except RenderError (String × String) := do
  e.validate.mapError .invalidEdit
  let source := Naming.source e.format e.source.fileName
  let output := Naming.output source o.suffix e.format
  if output = source then
    throw (.internal ("output name " ++ output ++ " would overwrite the source"))
  return (source, output)

def Edit.assemble (e : Edit) (o : AssemblyOptions) : Measured (Except RenderError EditCommand) :=
  match e.names o with
  | .error err => ⟨.error err, []⟩
  | .ok (source, output) =>
    let images := ImageInput.ofOverlays e.images
    match Filter.compile o.fontDir images e.texts with
    | ⟨.error err, metrics⟩ => ⟨.error err, metrics⟩
    | ⟨.ok graph, metrics⟩ =>
      ⟨.ok ⟨source, images, graph, e.trim, e.format, output⟩,
        metrics ++ [.commandAssembled "edit"]⟩

def Preset.command (p : Preset) (source output : String) : Measured Command :=
  ⟨(Command.ofPaths source output).addOutputOptions p.arguments, [.commandAssembled p.name]⟩

end Montage
