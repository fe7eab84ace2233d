import Montage.Engine.Run
import Montage.FileTree.Route

/-! Thumbnail strips: one image for each second of a video, numbered from one. -/
namespace Montage.Thumbnail

def fileName (n : Nat) : String := "thumbnail-" ++ String.ofList (Numeral.padded 3 n) ++ ".png"

/-- The command that writes the strip of an input into the directory where it is run. -/
def command (input : String) : Command :=
  (Command.ofPaths input "thumbnail-%03d.png").videoFilter "fps=1"

/-- The names from a number on, up to the first that is not there. -/
def collectFrom (t : FileTree) (dir : Route) : (limit n : Nat) → Except IoError (List String)
  | 0, _ => .ok []
  | limit + 1, n => do
    if ← t.present (dir.child (fileName n)) then
      return fileName n :: (← collectFrom t dir limit (n + 1))
    else return []

/-- The names of a directory's strip. There are no more of them than entries in the tree. -/
def collect (t : FileTree) (dir : Route) : Except IoError (List String) :=
  collectFrom t dir (t.entries.length + 1) 1

/-- The paths of a directory's strip, as users know the directory. -/
def collectPaths (t : FileTree) (d : Directory) : Except IoError (List String) :=
  (collect t d.route).map (·.map d.pathOf)

structure Strip where
  result : Except RenderError (List String)
  launch : Option Launch := none
  tree : FileTree
  metrics : List Metric := []

/-- Runs the command of a strip in its directory and lists what is there afterwards. -/
def generateIn (isCancelled : Bool) (course : Option Course) (source : Location) (dir : Directory)
    (t : FileTree) : Strip :=
  match t.resolve dir.route with
  | .error e => { result := .error (.io e), tree := t }
  | .ok location =>
    let run := (command (Directory.absolutePath source)).run isCancelled course location t
    let result := do
      run.result
      (collectPaths run.tree dir).mapError .io
    ⟨result, run.launch, run.tree, run.metrics⟩

/-- Makes the strip of an input in a directory. The input is passed on by its absolute path, since the
command runs elsewhere. -/
def generate (isCancelled : Bool) (course : Option Course) (here : Location) (input dir : String)
    (t : FileTree) : Strip :=
  match (Route.parse here input).bind t.canonical with
  | .error _ => { result := .error (.fileNotFound input), tree := t }
  | .ok source =>
    match Route.parse here dir with
    | .error e => { result := .error (.io e), tree := t }
    | .ok route =>
      match t.makeDirectories route with
      | (made, .error e) => { result := .error (.io e), tree := made }
      | (made, .ok ()) => generateIn isCancelled course source ⟨dir, route⟩ made

end Montage.Thumbnail
