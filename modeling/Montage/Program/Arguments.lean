import Montage.Overlay.Basic
import Montage.Preset

/-! The arguments of the program: a command, and options that each take a value. An option is written
`--name value` or `--name=value`, at most once. Arguments are read from left to right, and the first
that asks for help or is out of place decides. -/
namespace Montage

inductive Task where
  | render (spec : String) (out : Option String)
  | command (spec : String)
  | schema
  | preset (input : String) (preset : Preset) (out : Option String)
  | thumbnails (input dir : String)
  | importFile (file : String) (id : Option AssetId)
deriving DecidableEq, Repr

inductive Stop where
  | help
  | version
  | misuse
deriving DecidableEq, Repr

namespace Arguments

inductive ValueKind where
  | path
  | preset
  | any
deriving DecidableEq

def ValueKind.accepts : ValueKind → String → Bool
  | path, value => value ≠ ""
  | preset, value => match Preset.parse value with
    | .ok _ => true
    | .error _ => false
  | any, _ => true

structure Opt where
  name : String
  kind : ValueKind := .path
  required : Bool := true

abbrev Values := List (String × String)

/-- Takes down the value of an option, the first one and of the right kind. -/
def record (options : List Opt) (values : Values) (name value : String) : Except Stop Values :=
  match options.find? (·.name = name) with
  | none => .error .misuse
  | some o =>
    if (values.lookup name).isSome || !o.kind.accepts value then .error .misuse
    else .ok (values ++ [(name, value)])

def startsWith (start : String) (s : String) : Bool := start.toList.isPrefixOf s.toList

/-- A value that stands by itself does not look like an option; a single dash does not. -/
def isValue (s : String) : Bool := !startsWith "-" s || s = "-"

def splitLong? (s : String) : Option (String × String) :=
  match s.toList with
  | '-' :: '-' :: cs => (Text.splitFirst? '=' cs).map fun (n, v) => (String.ofList n, String.ofList v)
  | _ => none

def longName? (s : String) : Option String :=
  match s.toList with
  | '-' :: '-' :: cs => some (String.ofList cs)
  | _ => none

def readOptions (options : List Opt) (values : Values) : List String → Except Stop Values
  | [] => .ok values
  | s :: rest =>
    if s = "--" then if rest = [] then .ok values else .error .misuse
    else if s = "--help" ∨ startsWith "-h" s then .error .help
    else match splitLong? s with
      | some (name, value) => do readOptions options (← record options values name value) rest
      | none =>
        match longName? s, rest with
        | some name, value :: rest =>
          if isValue value then do readOptions options (← record options values name value) rest
          else .error .misuse
        | _, _ => .error .misuse

def readAll (options : List Opt) (args : List String) : Except Stop Values := do
  let values ← readOptions options [] args
  if options.all fun o => !o.required || (values.lookup o.name).isSome then return values
  else throw .misuse

def need (values : Values) (name : String) : Except Stop String :=
  match values.lookup name with
  | some value => .ok value
  | none => .error .misuse

def readTask (command : String) (args : List String) : Except Stop Task :=
  match command with
  | "render" => do
    let v ← readAll [⟨"spec", .path, true⟩, ⟨"out", .path, false⟩] args
    return .render (← need v "spec") (v.lookup "out")
  | "command" => do
    let v ← readAll [⟨"spec", .path, true⟩] args
    return .command (← need v "spec")
  | "schema" => do
    let _ ← readAll [] args
    return .schema
  | "preset" => do
    let v ← readAll [⟨"input", .path, true⟩, ⟨"preset", .preset, true⟩, ⟨"out", .path, false⟩] args
    match Preset.parse (← need v "preset") with
    | .ok preset => return .preset (← need v "input") preset (v.lookup "out")
    | .error _ => throw .misuse
  | "thumbnails" => do
    let v ← readAll [⟨"input", .path, true⟩, ⟨"dir", .path, true⟩] args
    return .thumbnails (← need v "input") (← need v "dir")
  | "import" => do
    let v ← readAll [⟨"file", .path, true⟩, ⟨"id", .any, false⟩] args
    return .importFile (← need v "file") (v.lookup "id")
  | _ => .error .misuse

def commands : List String := ["render", "command", "schema", "preset", "thumbnails", "import"]

/-- Help may be asked for as a command too, in general or for one command. -/
def readHelp : List String → Stop
  | [] => .help
  | [name] => if name = "help" ∨ name ∈ commands then .help else .misuse
  | _ => .misuse

def read : List String → Except Stop Task
  | [] => .error .misuse
  | s :: rest =>
    if s = "--version" ∨ startsWith "-V" s then .error .version
    else if s = "--help" ∨ startsWith "-h" s then .error .help
    else if s = "help" then .error (readHelp rest)
    else readTask s rest

end Arguments
end Montage
