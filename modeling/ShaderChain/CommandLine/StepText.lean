import ShaderChain.CommandLine.Failure
import ShaderChain.Pipeline.Step
import ShaderChain.Text.Blank

/-!
# Steps as text

On a command line a step is written `TOOL` or `TOOL:KEY=VALUE,KEY=VALUE`. Blanks
around the parts do not count, pieces without content are skipped, and the last
value of a key counts.
-/

set_option autoImplicit false

namespace ShaderChain.CommandLine

/-- The text of characters without the blanks at either end. -/
def stripped (cs : List Char) : String := String.ofList (Text.strip cs)

/-- The tool of a step and the text of its arguments. -/
def splitStep (cs : List Char) : List Char × List Char := (Text.splitFirst? ':' cs).getD (cs, [])

/-- The pieces between the commas that have content, without the blanks at either end. -/
def argumentPieces (cs : List Char) : List (List Char) :=
  ((Text.splitEvery ',' cs).map Text.strip).filter (! ·.isEmpty)

/-- A step with the arguments that pieces of text write. -/
def addArguments (spec : String) (step : Step) : List (List Char) → Except Failure Step
  | [] => .ok step
  | piece :: rest =>
    match Text.splitFirst? '=' piece with
    | none => .error (.badArgument (String.ofList piece) spec)
    | some (key, value) =>
      addArguments spec (step.withArgument (stripped key) (stripped value)) rest

/-- The step that a text writes. -/
def parseStep (spec : String) : Except Failure Step :=
  let (tool, arguments) := splitStep spec.toList
  if (stripped tool).isEmpty then .error (.noTool spec)
  else addArguments spec (.ofTool (stripped tool)) (argumentPieces arguments)

/-- The steps that texts write, up to the first that writes none. -/
def parseSteps : List String → Except Failure (List Step)
  | [] => .ok []
  | spec :: rest =>
    match parseStep spec with
    | .error failure => .error failure
    | .ok step => (parseSteps rest).map (step :: ·)

end ShaderChain.CommandLine
