import ShaderChain.Machine.IoError
import ShaderChain.Machine.Path
import ShaderChain.Pipeline.Error

/-!
# Failures of commands

Why a command failed. A failure is told as a chain of texts: what failed comes
first, and what was the matter with it after that.
-/

set_option autoImplicit false

namespace ShaderChain.CommandLine

/-- Why a command failed. -/
inductive Failure where
  /-- Neither steps nor a pipeline were given. -/
  | noSteps
  /-- A step names no tool. -/
  | noTool (step : String)
  /-- An argument of a step has no value. -/
  | badArgument (argument step : String)
  /-- There is no pipeline of a name. -/
  | noPipeline (name : String)
  /-- The language of an input is not known. -/
  | noLanguage (input : Path)
  /-- The pipeline was refused or stopped. -/
  | pipeline (error : PipelineError)
  /-- A file could not be read. -/
  | reading (path : Path) (cause : IoError)
  /-- A directory could not be made. -/
  | creating (path : Path) (cause : IoError)
  /-- A file or directory could not be written. -/
  | io (cause : IoError)
  /-- A path that is no text cannot stand in a document. -/
  | pathIsNoText
  /-- Steps reported errors. -/
  | stepErrors (count : Nat)
  /-- There is no tool of a name. -/
  | noSuchTool (name : String)
  /-- There is no directory for configurations. -/
  | noConfigDir
deriving DecidableEq

namespace Failure

/-- What a failure of the pipeline is about. -/
def pipelineChain (error : PipelineError) : List String :=
  match error with
  | .invalidParameter _ _ source => [error.message, source.message]
  | _ => [error.message]

/-- The failure in words. -/
def chain : Failure → List String
  | noSteps => ["No steps given. Use --step TOOL[:KEY=VALUE,...] or --pipeline"]
  | noTool step => ["Step '" ++ step ++ "' has no tool name"]
  | badArgument argument step =>
    ["Invalid argument '" ++ argument ++ "' in step '" ++ step ++ "': expected KEY=VALUE"]
  | noPipeline name => ["Pipeline not found: " ++ name ++ " (no such file or library entry)"]
  | noLanguage input => ["Cannot infer the language of " ++ input.text ++ "; pass --language"]
  | pipeline error => pipelineChain error
  | reading path cause => ["Failed to read " ++ path.text, cause.message]
  | creating path cause => ["Failed to create " ++ path.text, cause.message]
  | io cause => [cause.message]
  | pathIsNoText => ["path contains invalid UTF-8 characters"]
  | stepErrors count => [Integer.naturalText count ++ " step(s) reported errors"]
  | noSuchTool name => ["Tool not found: " ++ name]
  | noConfigDir => ["Could not determine config directory"]

end Failure

end ShaderChain.CommandLine
