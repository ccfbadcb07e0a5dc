import ShaderChain.Machine.IoError
import ShaderChain.Machine.Path
import ShaderChain.Number.Duration

/-!
# Failures of a tool

Why one invocation of a tool gave no result. Such a failure is reported in the
result of its step; it never aborts a pipeline by itself.
-/

set_option autoImplicit false

namespace ShaderChain

/-- Why an invocation of a tool gave no result. -/
inductive ToolError where
  /-- The program could not be started. -/
  | spawn (program : String) (cause : IoError)
  /-- The program did not finish in time. -/
  | timeout (program : String) (limit : Duration)
  /-- A file could not be read or written. -/
  | io (cause : IoError)
  /-- The program succeeded without writing its output file. -/
  | missingOutput (path : Path)
  /-- The program reported a failure. -/
  | failed (exitCode : Option Int) (diagnostics : String)
  /-- An argument is not bound. -/
  | missingArgument (name : String)
  /-- An argument has another type than the tool expects. -/
  | argumentType (name : String) (expected : String)
deriving DecidableEq, Repr

namespace ToolError

/-- The failure in words; a failure that the program reported speaks for itself. -/
def message : ToolError → String
  | spawn program cause => "failed to launch '" ++ program ++ "': " ++ cause.message
  | timeout program limit => "'" ++ program ++ "' timed out after " ++ limit.text
  | io cause => "I/O error: " ++ cause.message
  | missingOutput path => "tool produced no output at " ++ path.text
  | failed _ diagnostics => diagnostics
  | missingArgument name => "missing argument '" ++ name ++ "'"
  | argumentType name expected => "argument '" ++ name ++ "' is not a " ++ expected

end ToolError

end ShaderChain
