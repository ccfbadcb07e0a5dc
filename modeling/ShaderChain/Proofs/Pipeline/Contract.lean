import ShaderChain.Proofs.Pipeline.Planning
import ShaderChain.Proofs.Pipeline.Trace
import ShaderChain.Proofs.Registry.Reachable

/-!
# The contract of a run

What a run of a request promises about the calls of tools it makes and about
what it ends in. A request that cannot be planned makes no call. Otherwise the
calls are those of the first steps, one for each in order, and each gets the
arguments bound from its step and the artifact forwarded by the call before it.
A run that succeeds has called every step; one that fails stopped behind a step
that forwarded nothing, or in front of a step that does not take what was
forwarded (`Registry.RunContract`).

The contract holds for every registry that registering can lead to, every
request, and whatever the tools do with the effects of their monad
(`run_contract`): in a state monad their answers may depend on every call made
before.
-/

set_option autoImplicit false

namespace ShaderChain

namespace Registry

variable {m : Type → Type}

/-- A call of the registered tool of a step with the step's arguments, on an artifact that the
tool takes. -/
structure Serves (r : Registry m) (step : Step) (call : Call m) : Prop where
  registered : r.get? step.tool = some call.tool
  bound : bind call.tool.descriptor.parameters step.arguments = .ok call.arguments
  accepted : call.tool.descriptor.accepts call.input.language = true

/-- How a run fails that was planned: step `i` forwarded nothing though another step follows, or
step `i`, not the first, does not take the language of what was forwarded to it. -/
inductive Failure (r : Registry m) (input : Artifact) (steps : List Step) (calls : List (Call m)) :
    PipelineError → Prop where
  | nothing {i : Nat} {step : Step} {call : Call m} (isStep : steps[i]? = some step)
      (notLast : i + 1 < steps.length) (many : calls.length = i + 1)
      (called : calls[i]? = some call) (nothing : call.result.pipeable = none) :
      Failure r input steps calls (.noPipeableOutput i step.tool)
  | mismatch {i : Nat} {step : Step} {tool : Tool m} {call : Call m} {next : Artifact}
      (isStep : steps[i + 1]? = some step) (registered : r.get? step.tool = some tool)
      (many : calls.length = i + 1) (called : calls[i]? = some call)
      (gives : call.result.pipeable = some next)
      (refuses : tool.descriptor.accepts next.language = false) :
      Failure r input steps calls
        (.incompatibleStage (i + 1) step.tool next.language tool.descriptor.inputLanguages)

/-- What holds of the outcome of a run and of the calls it made. -/
structure RunContract (r : Registry m) (input : Artifact) (steps : List Step)
    (outcome : Except PipelineError (List StepResult)) (calls : List (Call m)) : Prop where
  /-- What is wrong with the plan is the outcome, and no tool is called. -/
  refused : ∀ error, r.plan input.language steps = .error error →
    outcome = .error error ∧ calls = []
  /-- The calls are those of the first steps. -/
  few : calls.length ≤ steps.length
  /-- Each call serves the step at its place. -/
  served : ∀ (i : Nat) call, calls[i]? = some call → ∃ step, steps[i]? = some step ∧ r.Serves step call
  /-- The first call gets the input, each later one what the call before it forwarded. -/
  chained : ∀ (i : Nat) call, calls[i]? = some call → incoming input calls i = some call.input
  /-- A run that succeeds called every step, and gives what the calls resulted in. -/
  completed : ∀ results, outcome = .ok results →
    calls.length = steps.length ∧ results = calls.map Call.result
  /-- Every result but possibly the last has something for the next step. -/
  forwarded : ∀ results, outcome = .ok results → ∀ (i : Nat) result, results[i]? = some result →
    i + 1 < results.length → result.isPipeable = true
  /-- A planned run fails in one of two ways. -/
  failed : ∀ p error, r.plan input.language steps = .ok p → outcome = .error error →
    r.Failure input steps calls error

/-- A call made for a planned step serves the step it was planned for. -/
theorem Serves.of_madeFor {r : Registry m} {step : Step} {s : PlannedStep m} {call : Call m}
    {current : Artifact} (resolves : r.Resolves step s) (made : call.MadeFor s current) :
    r.Serves step call := by
  obtain ⟨registered, bound⟩ := resolves
  obtain ⟨sameTool, sameInput, sameArguments, accepted⟩ := made
  refine ⟨sameTool ▸ registered, ?_, ?_⟩
  · rw [sameTool, sameArguments]
    exact bound
  · rw [sameTool, sameInput]
    exact accepted

/-- In a sound registry a planned step has the name that was asked for. -/
theorem Resolves.name_eq {r : Registry m} {step : Step} {s : PlannedStep m} (sound : r.Sound)
    (resolves : r.Resolves step s) : s.tool.name = step.tool :=
  (sound step.tool s.tool resolves.registered).1

section Planned

variable {r : Registry m} {input : Artifact} {steps : List Step} {planned : List (PlannedStep m)}
  {outcome : Except PipelineError (List StepResult)} {calls : List (Call m)}

/-- The calls of a planned run serve the requested steps. -/
theorem Serves.of_traced (derived : r.Planned 0 [input.language] steps planned)
    (traced : Traced input planned outcome calls) {i : Nat} {call : Call m}
    (called : calls[i]? = some call) : ∃ step, steps[i]? = some step ∧ r.Serves step call := by
  obtain ⟨s, isPlanned, made, _⟩ := traced.call_madeFor called
  obtain ⟨step, isStep, resolves⟩ := derived.exists_step isPlanned
  exact ⟨step, isStep, .of_madeFor resolves made⟩

/-- A planned run fails in one of two ways. -/
theorem Failure.of_traced (sound : r.Sound)
    (derived : r.Planned 0 [input.language] steps planned)
    (traced : Traced input planned outcome calls) {error : PipelineError}
    (isError : outcome = .error error) : r.Failure input steps calls error := by
  obtain ⟨i, s, isPlanned, ending⟩ := traced.of_error isError
  obtain ⟨step, isStep, resolves⟩ := derived.exists_step isPlanned
  have position : s.index = i := (derived.index_eq isPlanned).trans (Nat.zero_add i)
  have name := resolves.name_eq sound
  rcases ending with ⟨notLast, many, nothing, rfl⟩ | ⟨many, next, gets, refuses, rfl⟩
  · obtain ⟨call, called, forwards⟩ := exists_call_of_length input many
    rw [PlannedStep.noPipeableOutput, position, name]
    exact .nothing isStep (derived.length_eq ▸ notLast) many called (forwards.symm.trans nothing)
  · cases i with
    | zero =>
      -- The first step takes the input: that was checked when the plan was made.
      cases gets
      rw [derived.first_accepts isPlanned] at refuses
      cases refuses
    | succ i =>
      obtain ⟨call, called, forwards⟩ := exists_call_of_length input many
      rw [PlannedStep.incompatible, position, name]
      exact .mismatch isStep resolves.registered many called (forwards.symm.trans gets) refuses

end Planned

/-- A request that cannot be planned keeps the contract without a call. -/
theorem RunContract.of_refused {r : Registry m} {input : Artifact} {steps : List Step}
    {error : PipelineError} (refused : r.plan input.language steps = .error error) :
    r.RunContract input steps (.error error) [] := by
  refine ⟨?_, Nat.zero_le _, ?_, ?_, ?_, ?_, ?_⟩
  · intro other isError
    cases refused.symm.trans isError
    exact ⟨rfl, rfl⟩
  · intro i call called
    cases called
  · intro i call called
    cases called
  · intro results isOk
    cases isOk
  · intro results isOk
    cases isOk
  · intro p other isPlan
    cases refused.symm.trans isPlan

/-- A run that is derived from a plan keeps the contract. -/
theorem RunContract.of_traced {r : Registry m} (sound : r.Sound) {input : Artifact}
    {steps : List Step} {p : Plan m} {outcome : Except PipelineError (List StepResult)}
    {calls : List (Call m)} (planned : r.plan input.language steps = .ok p)
    (traced : Traced input p.steps outcome calls) : r.RunContract input steps outcome calls := by
  have derived := plan_eq_ok_iff.1 planned
  refine ⟨?_, ?_, ?_, ?_, ?_, ?_, ?_⟩
  · intro error refused
    rw [planned] at refused
    cases refused
  · by_contra many
    have called := List.getElem?_eq_getElem (show steps.length < calls.length by omega)
    obtain ⟨step, isStep, _⟩ := Serves.of_traced derived traced called
    rw [List.getElem?_eq_none (Nat.le_refl _)] at isStep
    cases isStep
  · intro i call called
    exact Serves.of_traced derived traced called
  · intro i call called
    obtain ⟨_, _, _, gets⟩ := traced.call_madeFor called
    exact gets
  · intro results isOk
    obtain ⟨lengths, same, _⟩ := traced.of_ok isOk
    exact ⟨lengths.trans derived.length_eq.symm, same⟩
  · intro results isOk i result found notLast
    obtain ⟨_, next, _, _, gives⟩ := traced.forwards_of_ok isOk found notLast
    exact Option.isSome_iff_exists.2 ⟨next, gives⟩
  · intro q error _ isError
    exact .of_traced sound derived traced isError

end Registry

/-- **Every run keeps its contract,** whatever the tools answer. Watching the tools makes the calls
visible and does not change the run. -/
theorem run_contract {m : Type → Type} [Monad m] [LawfulMonad m] (tools : List (Tool m))
    (input : Artifact) (steps : List Step) :
    let r := Registry.empty.offerAll tools
    (r.watched.run input steps).run' [] = r.run input steps ∧
      Always (fun out => r.RunContract input steps out.1 out.2)
        ((r.watched.run input steps).run []) := by
  intro r
  refine ⟨r.run'_watched input steps [], ?_⟩
  have sound : r.Sound := Registry.sound_empty.offerAll tools
  rw [Registry.run, Registry.plan_watched]
  cases planned : r.plan input.language steps with
  | error error => exact Always.pure (.of_refused planned)
  | ok p =>
    refine (@runSteps_watched m _ _ (fun _ => True) p.steps input [] fun s _ current =>
      Always.trivial (s.tool.compile current s.arguments)).mono fun out derived => ?_
    obtain ⟨calls, noted, traced, _⟩ := derived
    rw [noted, List.nil_append]
    exact .of_traced sound planned traced

/-- A tool that forwards what it gets at its first call, and nothing at later ones. -/
def Tool.onceOnly : Tool (StateM Nat) where
  descriptor := ⟨"relay", "Relay", "", [Language.hlsl], [Language.hlsl], []⟩
  compile input _ := do
    let earlier ← get
    set (earlier + 1)
    return .ok (if earlier = 0 then .forward input [] else .terminal [])

/-- Of three steps with that tool two are run: the answer to the second call depends on the
first. -/
theorem run_contract_onceOnly :
    let r := Registry.empty.offerAll [Tool.onceOnly]
    let input := Artifact.text Language.hlsl "main"
    let steps := [Step.ofTool "relay", .ofTool "relay", .ofTool "relay"]
    let out := (((r.watched.run input steps).run []).run 0).1
    out.1 = .error (.noPipeableOutput 1 "relay") ∧ out.2.length = 2 ∧
      r.RunContract input steps out.1 out.2 := by
  intro r input steps out
  refine ⟨by decide +kernel, by decide +kernel, ?_⟩
  exact always_state_iff.1 (run_contract [Tool.onceOnly] input steps).2 0

end ShaderChain
