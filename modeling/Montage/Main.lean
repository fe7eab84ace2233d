import Montage.Program.Basic

/-! The program on a real machine. It looks at the paths that its arguments and settings name, runs,
and writes down what has changed. No engine is started here, so what needs one fails. -/
namespace Montage.Main

def variableNames : List String :=
  ["VEDIT_WORK_DIR", "VEDIT_ASSET_DIR", "VEDIT_FONT_DIR", "VEDIT_OUTPUT_SUFFIX",
    "VEDIT_FFMPEG_TIMEOUT_SECS", "VEDIT_FFMPEG_LOG_LEVEL"]

def readEnvironment : IO EnvFile.Variables :=
  variableNames.filterMapM fun name => do return (← IO.getEnv name).map fun value => (name, value)

/-- What stands at a location. The system's error 21 tells a directory. -/
def readNode (p : Location) : IO (Option Node) := do
  try
    let bytes ← IO.FS.readBinFile (Directory.absolutePath p)
    return some (.file bytes.data.toList)
  catch
    | .inappropriateType _ 21 _ => return some .directory
    | _ => return none

def way (p : Location) : List Location := (List.range p.length).map fun n => p.take (n + 1)

def addNode (t : FileTree) (p : Location) : IO FileTree := do
  match ← readNode p with
  | some node => return t.put p node
  | none => return t

def taskPaths : Task → List String
  | .render spec out => spec :: out.toList
  | .command spec => [spec]
  | .schema => []
  | .preset input _ out => input :: out.toList
  | .thumbnails input dir => [input, dir]
  | .importFile file _ => [file]

def assetRoutes (s : Surroundings) (c : Config) : Task → List Route
  | .render spec _ =>
    match Program.readEdit s spec with
    | .ok edit => (edit.source.asset :: edit.images.map (·.image)).filterMap fun id =>
        ((Program.store s c).locate id).toOption
    | .error _ => []
  | _ => []

/-- The locations that the steps of a way touch from a location on. -/
def touched (above : Location) : List Step → List Location
  | [] => []
  | .down name :: rest => (above ++ [name]) :: touched (above ++ [name]) rest
  | .up :: rest => touched above.dropLast rest
  | _ :: rest => touched above rest

def passed (r : Route) : List Location := r.start :: touched r.start r.steps

def snapshot (t : FileTree) (places : List Location) : IO FileTree :=
  (places.flatMap way).foldlM addNode t

def surroundings (args : List String) : IO Surroundings := do
  let here := (passed (.ofPath [] (toString (← IO.currentDir)))).getLast?.getD []
  let environment ← readEnvironment
  let randomBytes := (← IO.getRandomBytes 16).data.toList
  let tree ← snapshot {} (here :: (way here).map (· ++ [".env"]))
  let s : Surroundings := { environment, tree, here, engine := fun _ => none, randomBytes }
  match Arguments.read args with
  | .error _ => return s
  | .ok task =>
    let c := Program.config s
    let named := (c.workDir :: c.assetDir :: taskPaths task).map (Route.ofPath here)
    let s := { s with tree := ← snapshot tree (named.flatMap passed) }
    return { s with tree := ← snapshot s.tree ((assetRoutes s c task).flatMap passed) }

def writeBack (old new : FileTree) : IO Unit :=
  new.entries.reverse.forM fun (p, node) => do
    if old.lookup p ≠ some node then
      match node with
      | .directory => IO.FS.createDirAll (Directory.absolutePath p)
      | .file bytes => IO.FS.writeBinFile (Directory.absolutePath p) ⟨bytes.toArray⟩

end Montage.Main

open Montage in
def main (args : List String) : IO UInt32 := do
  let s ← Main.surroundings args
  let departure := Program.run s args
  Main.writeBack s.tree departure.tree
  IO.print departure.stdout
  IO.eprint departure.stderr
  return departure.exitCode
