import Montage.Edit.Schema
import Montage.Identifier
import Montage.Job.Config
import Montage.Job.Render
import Montage.Json.Printer
import Montage.Program.Arguments
import Montage.Program.EnvFile
import Montage.Program.Report
import Montage.Store.Local
import Montage.Thumbnail

/-! The program as a function of what surrounds it: the environment, the file tree, an engine, and the
few things that differ from run to run. -/
namespace Montage

structure Surroundings where
  environment : EnvFile.Variables
  tree : FileTree
  here : Location
  engine : Machine
  /-- What an interrupt does to the cancellation signal. -/
  watch : Watch := .never
  /-- What is random: a new identifier, and the suffix of a staging directory. -/
  randomBytes : List UInt8 := List.replicate 16 0
  suffix : String := ""
  process : UInt32 := 0
  elapsed : Binary64 := 0

structure Departure where
  exitCode : UInt32 := 0
  stdout : String := ""
  stderr : String := ""
  tree : FileTree
  launch : Option Launch := none

/-- What has come of a render before its output is saved. -/
structure Attempt where
  result : Except Failure Output
  tree : FileTree
  launch : Option Launch := none

namespace Program

def version : String := "vedit 0.1.0"

def fail (f : Failure) (t : FileTree) (launch : Option Launch) : Departure :=
  { exitCode := 1, stderr := f.report, tree := t, launch }

def readFile (s : Surroundings) (path : String) : Except IoError Bytes :=
  (Route.parse s.here path).bind s.tree.read

def readEdit (s : Surroundings) (path : String) : Except Failure Edit :=
  (Edit.ofBytes (readFile s path)).mapError fun e =>
    (Failure.ofJob e).under ("load edit '" ++ path ++ "'")

def store (s : Surroundings) (c : Config) : LocalStore :=
  { root := .ofPath s.here c.assetDir, process := s.process }

def executor (s : Surroundings) (c : Config) : Executor where
  workDir := (Directory.ofPath s.here c.workDir).absolute s.here
  timeout := c.timeout
  logLevel := c.logLevel

def makeParent (s : Surroundings) (t : FileTree) (path : String) : FileTree × Except Failure Unit :=
  match Path.parent? path.toList with
  | none | some [] => (t, .ok ())
  | some parent =>
    let dir := String.ofList parent
    let (made, result) := match Route.parse s.here dir with
      | .ok route => t.makeDirectories route
      | .error e => (t, .error e)
    (made, result.mapError fun e => (Failure.ofIo e).under ("create output dir '" ++ dir ++ "'"))

def writeOutput (s : Surroundings) (t : FileTree) (path : String) (bytes : Bytes) :
    Except Failure FileTree :=
  ((Route.parse s.here path).bind (t.write · bytes)).mapError fun e =>
    (Failure.ofIo e).under ("write output '" ++ path ++ "'")

def saveOutput (s : Surroundings) (out : Option String) (output : Output) (t : FileTree)
    (launch : Option Launch) : Departure :=
  let path := out.getD output.fileName
  match makeParent s t path with
  | (made, .error f) => fail f made launch
  | (made, .ok ()) =>
    match writeOutput s made path output.bytes with
    | .error f => fail f made launch
    | .ok written =>
      { stderr := "wrote " ++ path ++ " in " ++ Timestamp.formatElapsed s.elapsed ++ "\n"
        tree := written
        launch }

def job (s : Surroundings) (c : Config) (e : Edit) : Rendering Execution :=
  Job.render ((store s c).load s.tree) ((executor s c).adapter s.watch s.engine s.suffix s.tree)
    c.assemblyOptions s.elapsed e

/-- Renders an edit as far as its output, which is not saved yet. -/
def attempt (s : Surroundings) (c : Config) (spec : String) : Attempt :=
  match readEdit s spec with
  | .error f => { result := .error f, tree := s.tree }
  | .ok e =>
    let rendering := job s c e
    let result := rendering.result.mapError fun err => (⟨err.diagnostic, []⟩ : Failure)
    match rendering.call with
    | some (_, done) => { result, tree := done.tree, launch := done.launch }
    | none => { result, tree := s.tree }

def render (s : Surroundings) (c : Config) (spec : String) (out : Option String) : Departure :=
  let a := attempt s c spec
  match a.result with
  | .error f => fail f a.tree a.launch
  | .ok output => saveOutput s out output a.tree a.launch

def showCommand (s : Surroundings) (c : Config) (spec : String) : Departure :=
  match readEdit s spec with
  | .error f => fail f s.tree none
  | .ok edit =>
    match (edit.assemble c.assemblyOptions).value with
    | .error e => fail (Failure.ofRender e) s.tree none
    | .ok command =>
      { stdout := (Json.ofStrings command.arguments).pretty ++ "\n", tree := s.tree }

def showSchema (s : Surroundings) : Departure :=
  { stdout := Edit.schema.pretty ++ "\n", tree := s.tree }

/-- The output of a preset beside its input, named after both. -/
def presetOutput (input : String) (p : Preset) : String :=
  let stem := (Path.stem? input.toList).getD "output".toList
  String.ofList (Path.withFileName input.toList (stem ++ '-' :: p.name.toList ++ ".mp4".toList))

def applyPreset (s : Surroundings) (c : Config) (input : String) (p : Preset) (out : Option String) :
    Departure :=
  let path := out.getD (presetOutput input p)
  let command := (p.command input path).value.withLogLevel c.logLevel
  let run := command.run s.watch.beforeStart (s.engine c.timeout) s.here s.tree
  match run.result with
  | .error e => fail ⟨e.diagnostic, []⟩ run.tree run.launch
  | .ok () => { stderr := "wrote " ++ path ++ "\n", tree := run.tree, launch := run.launch }

def makeThumbnails (s : Surroundings) (c : Config) (input dir : String) : Departure :=
  let strip := Thumbnail.generate s.watch.beforeStart (s.engine c.timeout) s.here input dir s.tree
  match strip.result with
  | .error e => fail ⟨e.diagnostic, []⟩ strip.tree strip.launch
  | .ok paths =>
    { stdout := String.join (paths.map (· ++ "\n")), tree := strip.tree, launch := strip.launch }

/-- Stores a file under an id, a new one if none is given. -/
def importFile (s : Surroundings) (c : Config) (file : String) (id : Option AssetId) : Departure :=
  match readFile s file with
  | .error e => fail ((Failure.ofIo e).under ("read '" ++ file ++ "'")) s.tree none
  | .ok bytes =>
    let key := id.getD (Identifier.ofBytes s.randomBytes)
    match (store s c).save s.tree key bytes with
    | (_, tree, .error e) => fail (Failure.ofStorage e) tree none
    | (_, tree, .ok ()) => { stdout := key ++ "\n", tree }

def perform (s : Surroundings) (c : Config) : Task → Departure
  | .render spec out => render s c spec out
  | .command spec => showCommand s c spec
  | .schema => showSchema s
  | .preset input p out => applyPreset s c input p out
  | .thumbnails input dir => makeThumbnails s c input dir
  | .importFile file id => importFile s c file id

/-- The settings in force: those of the environment, then those of an environment file. -/
def config (s : Surroundings) : Config :=
  let known := match EnvFile.find? s.tree s.here with
    | some bytes => EnvFile.extend s.environment bytes
    | none => s.environment
  Config.ofLookup fun name => known.lookup name

def run (s : Surroundings) (args : List String) : Departure :=
  match Arguments.read args with
  | .error .misuse => { exitCode := 2, tree := s.tree }
  | .error .help => { tree := s.tree }
  | .error .version => { stdout := version ++ "\n", tree := s.tree }
  | .ok task =>
    match (config s).validate with
    | .error e => fail (Failure.ofJob e) s.tree none
    | .ok () => perform s (config s) task

end Program
end Montage
