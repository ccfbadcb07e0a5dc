import ShaderChain.Text.Blank
import ShaderChain.Text.Utf8
import ShaderChain.Tool.Error

/-!
# Processes

What a tool asks for when it has a program run, what can come of it, and how the
output of a finished process is judged: it succeeded if it exited with code
zero, and otherwise everything it printed is the diagnosis.
-/

set_option autoImplicit false

namespace ShaderChain

/-- A program to run: with arguments, in a directory, and not for longer than a limit. -/
structure Invocation where
  program : Path
  arguments : List String
  directory : Path
  limit : Duration
deriving DecidableEq

/-- What can come of an invocation. A process that a signal ended has no exit code. -/
inductive LaunchOutcome where
  /-- The program could not be started. -/
  | refused (cause : IoError)
  /-- The process was still running at the limit, and was ended. -/
  | unfinished
  /-- The output of the process could not be collected. -/
  | lost (cause : IoError)
  /-- The process finished and left its output. -/
  | finished (exitCode : Option Int) (output errors : Bytes)
deriving DecidableEq

/-- The output of a finished process. Bytes that are no text stand as replacement characters. -/
structure ProcessOutput where
  exitCode : Option Int
  output : String
  errors : String
deriving DecidableEq

namespace ProcessOutput

/-- Whether the process exited with code zero. -/
def succeeded (p : ProcessOutput) : Bool := p.exitCode == some 0

/-- Everything the process printed, the output first, without blanks at the end of either part. -/
def diagnostics (p : ProcessOutput) : String :=
  let output := Text.trimEnd p.output
  let errors := Text.trimEnd p.errors
  if errors.isEmpty then output
  else if output.isEmpty then errors
  else output ++ "\n" ++ errors

/-- How the process ended, for one that printed nothing. -/
def ending (p : ProcessOutput) : String :=
  match p.exitCode with
  | some code => "process exited with code " ++ Integer.text code
  | none => "process terminated by signal"

/-- What the failure of the process is reported as. -/
def failure (p : ProcessOutput) : ToolError :=
  .failed p.exitCode (if p.diagnostics.isEmpty then p.ending else p.diagnostics)

/-- The output of a process that succeeded, or its failure. -/
def check (p : ProcessOutput) : Except ToolError ProcessOutput :=
  if p.succeeded then .ok p else .error p.failure

end ProcessOutput

/-- The output of a process, or the failure that an invocation ended in. -/
def LaunchOutcome.toResult (invocation : Invocation) :
    LaunchOutcome → Except ToolError ProcessOutput
  | refused cause => .error (.spawn invocation.program.text cause)
  | unfinished => .error (.timeout invocation.program.text invocation.limit)
  | lost cause => .error (.io cause)
  | finished exitCode output errors =>
    .ok ⟨exitCode, Text.decodeLossy output, Text.decodeLossy errors⟩

end ShaderChain
