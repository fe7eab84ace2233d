/-! Commands for the engine: inputs with the options in front of each, options of the output, and the
output. -/
namespace Montage

structure CommandInput where
  options : List String := []
  path : String
deriving DecidableEq

structure Command where
  /-- The first input is the source. -/
  inputs : List CommandInput
  output : String
  outputOptions : List String := []
  overwrite : Bool := true
  logLevel : String := "error"
deriving DecidableEq

namespace Command

def ofPaths (input output : String) : Command := { inputs := [{ path := input }], output }

def addInput (c : Command) (path : String) : Command :=
  { c with inputs := c.inputs ++ [{ path }] }

def inputOption (c : Command) (option : String) : Command :=
  { c with inputs := match c.inputs.getLast? with
      | some input => c.inputs.dropLast ++ [{ input with options := input.options ++ [option] }]
      | none => [] }

def addOutputOptions (c : Command) (options : List String) : Command :=
  { c with outputOptions := c.outputOptions ++ options }

def outputOption (c : Command) (option : String) : Command := c.addOutputOptions [option]

def filterGraph (c : Command) (graph : String) : Command :=
  c.addOutputOptions ["-filter_complex", graph]

def videoFilter (c : Command) (filter : String) : Command := c.addOutputOptions ["-vf", filter]

/-- The position, in seconds as text, where the output starts. -/
def startAt (c : Command) (position : String) : Command := c.addOutputOptions ["-ss", position]

def stopAt (c : Command) (position : String) : Command := c.addOutputOptions ["-to", position]

def withLogLevel (c : Command) (level : String) : Command := { c with logLevel := level }

def withOverwrite (c : Command) (overwrite : Bool) : Command := { c with overwrite }

def inputArguments (input : CommandInput) : List String := input.options ++ ["-i", input.path]

def arguments (c : Command) : List String :=
  c.inputs.flatMap inputArguments ++ c.outputOptions ++ [c.output]

/-- The arguments of a run, which reports its progress beside its other messages. -/
def runArguments (c : Command) : List String :=
  (if c.overwrite then ["-y"] else []) ++ ["-v", c.logLevel, "-progress", "pipe:2"] ++ c.arguments

end Command
end Montage
