import ShaderChain.Pipeline.Step
import ShaderChain.Registry

/-!
# Plans

A request, a list of steps, is planned in full before any tool runs. For each
step in order the plan finds its tool, makes sure that the step before it can
have something to forward, that one of the languages which may come in is taken,
and binds the arguments. The first thing found wrong is the error of the plan.

The languages that may come in are the language of the input for the first
step, and for each later one those that the step before it may emit.
-/

set_option autoImplicit false

namespace ShaderChain

/-- A step with its tool found and its arguments bound. -/
structure PlannedStep (m : Type → Type) where
  index : Nat
  tool : Tool m
  arguments : BoundArguments

namespace PlannedStep

variable {m : Type → Type}

/-- The error of a step that gets a language its tool does not take. -/
def incompatible (s : PlannedStep m) (got : String) : PipelineError :=
  .incompatibleStage s.index s.tool.name got s.tool.descriptor.inputLanguages

/-- The error of a step that has nothing for the next one. -/
def noPipeableOutput (s : PlannedStep m) : PipelineError := .noPipeableOutput s.index s.tool.name

/-- The step for a reader of diagnostics. -/
def diagnosticText (s : PlannedStep m) : String :=
  let valueText (value : ArgumentValue) : String :=
    match value with
    | .string value => "String(" ++ Text.quoted value ++ ")"
    | .bool value => "Bool(" ++ ArgumentValue.boolText value ++ ")"
    | .int value => "Int(" ++ Integer.text value.toInt ++ ")"
  let entries := s.arguments.values.map fun entry =>
    "(" ++ Text.quoted entry.1 ++ ", " ++ valueText entry.2 ++ ")"
  Text.recordText "PlannedStep"
    [("index", Integer.naturalText s.index), ("tool", Text.quoted s.tool.name),
     ("arguments", Text.recordText "BoundArguments" [("values", Text.bracketed entries)])]

end PlannedStep

/-- The planned steps of a request. -/
structure Plan (m : Type → Type) where
  steps : List (PlannedStep m)

namespace Plan

/-- The plan for a reader of diagnostics. -/
def diagnosticText {m : Type → Type} (p : Plan m) : String :=
  Text.recordText "Plan" [("steps", Text.bracketed (p.steps.map PlannedStep.diagnosticText))]

end Plan

/-- Languages as an alternative in words. -/
def describeLanguages (languages : List String) : String :=
  match languages.reverse with
  | [] => ""
  | [one] => one
  | last :: before => Text.joined ", " before.reverse ++ " or " ++ last

namespace Registry

variable {m : Type → Type}

/-- Plans one step: `previous` is the step before it, `incoming` the languages that may come
in. -/
def planStep (r : Registry m) (index : Nat) (previous : Option (PlannedStep m))
    (incoming : List String) (step : Step) : Except PipelineError (PlannedStep m) :=
  match r.get? step.tool with
  | none => .error (.unknownTool index step.tool)
  | some tool =>
    match previous.filter fun _ => incoming.isEmpty with
    | some previous => .error previous.noPipeableOutput
    | none =>
      if incoming.any tool.descriptor.accepts then
        match bind tool.descriptor.parameters step.arguments with
        | .error source => .error (.invalidParameter index step.tool source)
        | .ok arguments => .ok ⟨index, tool, arguments⟩
      else
        .error (.incompatibleStage index step.tool (describeLanguages incoming)
          tool.descriptor.inputLanguages)

/-- Plans the steps of a request from a position on. -/
def planFrom (r : Registry m) (index : Nat) (previous : Option (PlannedStep m))
    (incoming : List String) : List Step → Except PipelineError (List (PlannedStep m))
  | [] => .ok []
  | step :: rest =>
    match r.planStep index previous incoming step with
    | .error error => .error error
    | .ok planned =>
      (r.planFrom (index + 1) (some planned)
        (planned.tool.descriptor.predictedLanguages planned.arguments) rest).map (planned :: ·)

/-- Plans a request for an input in a language. -/
def plan (r : Registry m) (language : String) (steps : List Step) :
    Except PipelineError (Plan m) :=
  (r.planFrom 0 none [language] steps).map Plan.mk

end Registry

end ShaderChain
