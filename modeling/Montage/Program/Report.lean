import Montage.Job.Error

/-! Error reports: a first message, and below it the messages of the causes. Several causes are
numbered, and the further lines of a message stand below its first. -/
namespace Montage

structure Failure where
  message : String
  causes : List String := []
deriving DecidableEq

namespace Failure

/-- Puts one text in front of the first line and another in front of the others. -/
def indent (first others : String) (message : String) : String :=
  let lines := (Text.splitOn '\n' message.toList).map String.ofList
  first ++ ("\n" ++ others).intercalate lines

def label (n : Nat) : String :=
  let digits := Numeral.text n
  String.ofList (List.replicate (5 - digits.length) ' ') ++ digits ++ ": "

def causeLines : List String → List String
  | [cause] => [indent "    " "    " cause]
  | causes => causes.zipIdx.map fun (cause, n) => indent (label n) "       " cause

def report (f : Failure) : String :=
  "Error: " ++ f.message ++
    (if f.causes = [] then "" else "\n\nCaused by:\n" ++ "\n".intercalate (causeLines f.causes)) ++ "\n"

def under (f : Failure) (message : String) : Failure := ⟨message, f.message :: f.causes⟩

def ofIo (e : IoError) : Failure := ⟨e.message, []⟩

def ofRender (e : RenderError) : Failure := ⟨e.message, e.cause?.toList⟩

def ofStorage (e : StorageError) : Failure :=
  ⟨e.message, match e with
    | .writeFailed _ cause | .io cause => [cause.message]
    | _ => []⟩

def ofJob (e : JobError) : Failure :=
  ⟨e.message, match e with
    | .config _ => []
    | .storage cause => (ofStorage cause).message :: (ofStorage cause).causes
    | .render cause => (ofRender cause).message :: (ofRender cause).causes
    | .io cause => [cause.message]
    | .json cause => [cause.message]⟩

end Failure
end Montage
