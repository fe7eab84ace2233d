import Montage.Command.Basic

/-! Commands that are built call by call. A call is about an input, about the arguments behind the
inputs, or about a setting of the run. -/
namespace Montage.Command

inductive Call where
  | addInput (path : String)
  /-- An option of the input that was added last. -/
  | inputOption (option : String)
  | outputOption (option : String)
  | outputOptions (options : List String)
  | filterGraph (graph : String)
  | videoFilter (filter : String)
  | startAt (position : String)
  | stopAt (position : String)
  | logLevel (level : String)
  | overwrite (overwrite : Bool)
deriving DecidableEq

def apply (c : Command) : Call → Command
  | .addInput path => c.addInput path
  | .inputOption option => c.inputOption option
  | .outputOption option => c.outputOption option
  | .outputOptions options => c.addOutputOptions options
  | .filterGraph graph => c.filterGraph graph
  | .videoFilter filter => c.videoFilter filter
  | .startAt position => c.startAt position
  | .stopAt position => c.stopAt position
  | .logLevel level => c.withLogLevel level
  | .overwrite overwrite => c.withOverwrite overwrite

/-- The command that a source, an output and some calls make. -/
def build (source output : String) (calls : List Call) : Command :=
  calls.foldl apply (ofPaths source output)

end Montage.Command
