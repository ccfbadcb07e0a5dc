import ShaderChain.Pipeline.Plan

/-!
# Running a plan

The steps of a plan run one after the other, each on what the one before it
forwarded. The language of what was forwarded is checked again before the next
tool runs; a step that has nothing to forward ends the run unless it is the
last.
-/

set_option autoImplicit false

namespace ShaderChain

variable {m : Type → Type} [Monad m]

/-- Runs planned steps on an artifact, and gives one result per step. -/
def runSteps (current : Artifact) :
    List (PlannedStep m) → m (Except PipelineError (List StepResult))
  | [] => return .ok []
  | step :: rest => do
    if step.tool.descriptor.accepts current.language then
      let result ← step.tool.execute current step.arguments
      match result.pipeable with
      | some next => return (← runSteps next rest).map (result :: ·)
      | none => return if rest.isEmpty then .ok [result] else .error step.noPipeableOutput
    else return .error (step.incompatible current.language)

/-- Runs a plan on an artifact. -/
def Plan.run (p : Plan m) (input : Artifact) : m (Except PipelineError (List StepResult)) :=
  runSteps input p.steps

/-- Plans a request for an artifact and runs it. Nothing runs if the planning fails. -/
def Registry.run (r : Registry m) (input : Artifact) (steps : List Step) :
    m (Except PipelineError (List StepResult)) :=
  match r.plan input.language steps with
  | .error error => return .error error
  | .ok plan => plan.run input

end ShaderChain
