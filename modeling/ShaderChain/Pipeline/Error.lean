import ShaderChain.Parameter.Basic

/-!
# Errors of pipelines

What is wrong with a request to a pipeline, with a tool that is registered, or
with a pipeline definition. The first four kinds belong to a step, whose
position they carry.
-/

set_option autoImplicit false

namespace ShaderChain

/-- Why a pipeline was not run to its end, or a tool or definition was refused. -/
inductive PipelineError where
  /-- A step names a tool that is not registered. -/
  | unknownTool (step : Nat) (tool : String)
  /-- A step's tool does not take the language it would get. -/
  | incompatibleStage (step : Nat) (tool : String) (got : String) (expected : List String)
  /-- An argument of a step is refused. -/
  | invalidParameter (step : Nat) (tool : String) (source : ParameterError)
  /-- A step that is not the last one has nothing for the next. -/
  | noPipeableOutput (step : Nat) (tool : String)
  /-- A tool may not be registered. -/
  | invalidTool (reason : String)
  /-- A pipeline definition cannot be used. -/
  | invalidDefinition (reason : String)
deriving DecidableEq

namespace PipelineError

/-- The beginning of an error of a step. -/
def atStep (step : Nat) (tool : String) : String :=
  "step " ++ Integer.naturalText step ++ ": tool '" ++ tool ++ "' "

/-- The error in words. -/
def message : PipelineError → String
  | unknownTool step tool =>
    "step " ++ Integer.naturalText step ++ ": unknown tool '" ++ tool ++ "'"
  | incompatibleStage step tool got expected =>
    atStep step tool ++ "does not accept " ++ got ++ " input (expected one of: " ++
      Text.joined ", " expected ++ ")"
  | invalidParameter step tool source =>
    "step " ++ Integer.naturalText step ++ ": invalid arguments for tool '" ++ tool ++ "': " ++
      source.message
  | noPipeableOutput step tool =>
    atStep step tool ++ "produced no pipeable output but is not the last step"
  | invalidTool reason => "Invalid tool definition: " ++ reason
  | invalidDefinition reason => "Invalid pipeline definition: " ++ reason

/-- The position of the step that the error belongs to. -/
def step? : PipelineError → Option Nat
  | unknownTool step _ => some step
  | incompatibleStage step _ _ _ => some step
  | invalidParameter step _ _ => some step
  | noPipeableOutput step _ => some step
  | _ => none

/-- Whether the error lies in the request to the pipeline. -/
def isConfigurationError (e : PipelineError) : Bool := e.step?.isSome

end PipelineError

end ShaderChain
