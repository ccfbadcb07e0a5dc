import ShaderChain.CommandLine.Failure
import ShaderChain.Host
import ShaderChain.Language
import ShaderChain.Pipeline.Step
import ShaderChain.StepResult

/-!
# Files for the results of a run

Every step of a run leaves its artifact and its outputs in files of one
directory. The names begin with the number of the step and the name of its tool;
only letters, digits and dashes stand in front of the extension, whatever the
tools and outputs are called (`slug`).
-/

set_option autoImplicit false

namespace ShaderChain.CommandLine

/-- Whether a character stands in names of files as it is. -/
def isNameChar (c : Char) : Bool := c.isAlphanum

/-- The name made small, each run of other characters than letters and digits replaced by a dash;
`afterDash` tells whether the last character before was one. -/
def slugFrom (afterDash : Bool) : List Char → List Char
  | [] => []
  | c :: rest =>
    if isNameChar c then c.toLower :: slugFrom false rest
    else if afterDash then slugFrom true rest
    else '-' :: slugFrom true rest

/-- The characters without the dashes at either end. -/
def stripDashes (cs : List Char) : List Char :=
  ((cs.dropWhile (· == '-')).reverse.dropWhile (· == '-')).reverse

/-- The form of a name in names of files. -/
def slug (name : String) : String := String.ofList (stripDashes (slugFrom false name.toList))

/-- The extension of an output's file. -/
def outputExtension (o : StepOutput) : String :=
  match o.value with
  | .text _ => "txt"
  | .binary _ => (o.language.map Language.fileExtension).getD "bin"

/-- How the names of a step's files begin. -/
def stepPart (index : Nat) (tool : String) : String :=
  Integer.naturalText (index + 1) ++ "-" ++ slug tool

/-- The name of the file for an artifact. -/
def artifactName (start : String) (a : Artifact) : String :=
  start ++ "." ++ Language.fileExtension a.language

/-- The name of the file for an output. -/
def outputName (start : String) (o : StepOutput) : String :=
  start ++ "-" ++ slug o.displayName ++ "." ++ outputExtension o

/-- The files of a step, in the order in which they are written. -/
def stepFiles (index : Nat) (tool : String) (r : StepResult) : List (String × Bytes) :=
  let start := stepPart index tool
  (r.pipeable.map fun a => (artifactName start a, a.payload.bytes)).toList ++
    r.outputs.map fun o => (outputName start o, o.value.bytes)

/-- The files of a run from the step at `index` on. -/
def runFiles (index : Nat) : List (Step × StepResult) → List (String × Bytes)
  | [] => []
  | (step, result) :: rest => stepFiles index step.tool result ++ runFiles (index + 1) rest

variable {m : Type → Type} [Monad m]

/-- Writes files into a directory, up to the first that cannot be written. -/
def writeFiles (host : Host m) (dir : Path) : List (String × Bytes) → ExceptT Failure m (List Path)
  | [] => return []
  | (name, content) :: rest => do
    match ← host.write (dir.child name) content with
    | .error cause => throw (.io cause)
    | .ok _ => return dir.child name :: (← writeFiles host dir rest)

/-- Makes a directory and writes the files of a run into it; gives their paths. -/
def writeOutputs (host : Host m) (dir : Path) (results : List (Step × StepResult)) :
    ExceptT Failure m (List Path) := do
  match ← host.makeDirectories dir with
  | .error cause => throw (.creating dir cause)
  | .ok _ => writeFiles host dir (runFiles 0 results)

end ShaderChain.CommandLine
