import ShaderChain.CommandLine.Handler

/-!
# How a command line ends

What is printed, what is complained of, and the status with which the program
exits: zero if all went well, one if a command failed, two if the command line
asked for nothing that could be done.
-/

set_option autoImplicit false

namespace ShaderChain.CommandLine

namespace UsageError

/-- The error in words. -/
def message : UsageError → String
  | displayHelp => ""
  | displayVersion => ""
  | helpOnMissingCommand => "a command is required: run, tools, pipelines or config"
  | missingSubcommand => "a command is required: run, tools, pipelines or config"
  | invalidSubcommand => "there is no such command"
  | missingRequiredArgument => "a required argument was not given"
  | unknownArgument => "an argument is not known"
  | invalidValue => "an option has no value"
  | argumentConflict => "options cannot be used together or more than once"
  | tooManyValues => "an option takes no value"

/-- Whether the command line asks for a text about the program, which is no failure. -/
def isQuestion : UsageError → Bool
  | displayHelp => true
  | displayVersion => true
  | _ => false

end UsageError

namespace Failure

/-- The failure as it is reported: what failed, and under it what was the matter. -/
def report (f : Failure) : String :=
  match f.chain with
  | [] => "Error"
  | [first] => "Error: " ++ first
  | first :: causes =>
    "Error: " ++ first ++ "\n\nCaused by:\n" ++ Text.joined "\n" (causes.map ("    " ++ ·))

end Failure

/-- What a command line leaves behind. -/
structure Ending where
  output : String
  complaints : List String
  status : UInt32
deriving DecidableEq

namespace Ending

/-- The ending of a command line that makes no request. -/
def ofUsageError (e : UsageError) : Ending :=
  if e.isQuestion then ⟨"", [], 0⟩ else ⟨"", ["error: " ++ e.message], 2⟩

/-- The ending of a request that was served. -/
def ofOutcome (warnings : List ConfigWarning) (outcome : Outcome) : Ending :=
  ⟨outcome.output,
    warnings.map (fun w => "warning: " ++ w.message) ++
      (outcome.failure.map Failure.report).toList,
    if outcome.failure.isSome then 1 else 0⟩

end Ending

/-- Does what the words of a command line ask for. -/
def serveWords {m : Type → Type} [Monad m] (host : Host m) (words : List String) : m Ending := do
  match Request.ofWords words with
  | .error e => return .ofUsageError e
  | .ok request =>
    let (l, outcome) ← serve host request
    return .ofOutcome l.warnings outcome

end ShaderChain.CommandLine
