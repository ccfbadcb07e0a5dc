import ShaderChain.Proofs.Pipeline.Completion
import ShaderChain.Proofs.Pipeline.Trace
import ShaderChain.Proofs.Registry.Reachable

/-!
# One step at a time

A request can be run without a plan: each step's tool is found, checked and
given its arguments only when the step is reached (`Registry.stepwise`).
Planning first is a refinement of this. What runs with a plan runs one step at a
time, with the same results. The converse holds if the tools are honest, that
is, forward only what was predicted for their arguments: the artifact that comes
in is then in one of the languages that the plan expects, so planning refuses no
request that would run (`planning_refines_stepwise`).
-/

set_option autoImplicit false

namespace ShaderChain

namespace Registry

section Stepwise

variable {m : Type → Type} [Monad m]

/-- Runs the steps of a request from a position on, looking at none before it is reached. -/
def stepwiseFrom (r : Registry m) (index : Nat) (current : Artifact) :
    List Step → m (Except PipelineError (List StepResult))
  | [] => return .ok []
  | step :: rest =>
    match r.get? step.tool with
    | none => return .error (.unknownTool index step.tool)
    | some tool =>
      if tool.descriptor.accepts current.language then
        match bind tool.descriptor.parameters step.arguments with
        | .error source => return .error (.invalidParameter index step.tool source)
        | .ok arguments => do
          let result ← tool.execute current arguments
          match result.pipeable with
          | some next => return (← r.stepwiseFrom (index + 1) next rest).map (result :: ·)
          | none =>
            return if rest.isEmpty then .ok [result] else .error (.noPipeableOutput index step.tool)
      else
        return .error (.incompatibleStage index step.tool current.language
          tool.descriptor.inputLanguages)

/-- Runs a request one step at a time. -/
def stepwise (r : Registry m) (input : Artifact) (steps : List Step) :
    m (Except PipelineError (List StepResult)) :=
  r.stepwiseFrom 0 input steps

end Stepwise

/-! ## Running one step at a time completes -/

variable {r : Registry Id}

/-- A step that is found and bound runs as if it were planned. -/
theorem stepwiseFrom_cons {index : Nat} {current : Artifact} {step : Step} {s : PlannedStep Id}
    {rest : List Step} (resolves : r.Resolves step s)
    (accepted : s.tool.descriptor.accepts current.language = true) :
    (r.stepwiseFrom index current (step :: rest)).run =
      match (s.result current).pipeable with
      | some next => (r.stepwiseFrom (index + 1) next rest).run.map (s.result current :: ·)
      | none =>
        if rest.isEmpty then .ok [s.result current]
        else .error (.noPipeableOutput index step.tool) := by
  rw [stepwiseFrom, resolves.registered]
  dsimp only
  rw [if_pos accepted, resolves.bound]
  change (match (s.result current).pipeable with
    | some next => _
    | none => _ : Id _) = _
  cases (s.result current).pipeable with
  | some next => rfl
  | none => rfl

/-- The steps that are reached are found, checked and bound. -/
theorem exists_resolves_of_stepwiseFrom {index : Nat} {current : Artifact} {step : Step}
    {rest : List Step} {results : List StepResult}
    (isOk : (r.stepwiseFrom index current (step :: rest)).run = .ok results) :
    ∃ s, r.Resolves step s ∧ s.tool.descriptor.accepts current.language = true := by
  rw [stepwiseFrom] at isOk
  cases registered : r.get? step.tool with
  | none => rw [registered] at isOk; cases isOk
  | some tool =>
    rw [registered] at isOk
    dsimp only at isOk
    by_cases accepted : tool.descriptor.accepts current.language = true
    · rw [if_pos accepted] at isOk
      cases bound : bind tool.descriptor.parameters step.arguments with
      | error source => rw [bound] at isOk; cases isOk
      | ok arguments => exact ⟨⟨index, tool, arguments⟩, ⟨registered, bound⟩, accepted⟩
    · rw [if_neg accepted] at isOk
      cases isOk

/-- **Running one step at a time succeeds exactly with what completes** for steps found and bound
as requested, whether planned or not. -/
theorem stepwiseFrom_eq_ok_iff {index : Nat} {current : Artifact} {steps : List Step}
    {results : List StepResult} :
    (r.stepwiseFrom index current steps).run = .ok results ↔
      ∃ planned, List.Forall₂ r.Resolves steps planned ∧ Completes current planned results := by
  induction steps generalizing index current results with
  | nil =>
    constructor
    · intro isOk
      cases isOk
      exact ⟨[], .nil, .nil⟩
    · rintro ⟨planned, resolved, completes⟩
      cases resolved
      cases completes
      rfl
  | cons step rest ih =>
    constructor
    · intro isOk
      obtain ⟨s, resolves, accepted⟩ := exists_resolves_of_stepwiseFrom isOk
      rw [stepwiseFrom_cons resolves accepted] at isOk
      cases gives : (s.result current).pipeable with
      | some next =>
        rw [gives] at isOk
        cases tail : (r.stepwiseFrom (index + 1) next rest).run with
        | error error => simp only [tail] at isOk; cases isOk
        | ok later =>
          simp only [tail] at isOk
          cases isOk
          obtain ⟨planned, resolved, completes⟩ := ih.1 tail
          exact ⟨s :: planned, .cons resolves resolved, .cons accepted gives completes⟩
      | none =>
        rw [gives] at isOk
        cases rest with
        | nil =>
          cases isOk
          exact ⟨[s], .cons resolves .nil, .last accepted gives⟩
        | cons next later => cases isOk
    · rintro ⟨planned, resolved, completes⟩
      cases resolved with
      | cons resolves resolved =>
        rw [stepwiseFrom_cons resolves completes.first_accepts]
        cases completes with
        | last accepted nothing =>
          cases resolved
          rw [nothing]
          rfl
        | cons accepted gives later =>
          rw [gives]
          simp only [ih.2 ⟨_, resolved, later⟩]
          rfl

end Registry

/-! ## Honest tools -/

/-- A tool that forwards only what was predicted for the arguments it was given. -/
def Tool.Honest (t : Tool Id) : Prop :=
  ∀ raw args input result next, bind t.descriptor.parameters raw = .ok args →
    (t.compile input args).run = .ok result → result.pipeable = some next →
      next.language ∈ t.descriptor.predictedLanguages args

/-- A registry of honest tools. -/
def Registry.Honest (r : Registry Id) : Prop := ∀ name t, r.get? name = some t → t.Honest

/-- What an honest tool's step forwards is in a language that was predicted for the step. -/
theorem Registry.Honest.mem_predicted {r : Registry Id} (honest : r.Honest) {step : Step}
    {s : PlannedStep Id} (resolves : r.Resolves step s) {current next : Artifact}
    (gives : (s.result current).pipeable = some next) : next.language ∈ s.predicted := by
  have executed : s.result current =
      StepResult.ofAnswer (s.tool.compile current s.arguments).run := by
    rw [PlannedStep.result, Tool.execute_eq]
    rfl
  rw [executed] at gives
  cases answered : (s.tool.compile current s.arguments).run with
  | ok result =>
    rw [answered] at gives
    exact honest step.tool s.tool resolves.registered step.arguments s.arguments current result
      next resolves.bound answered gives
  | error failure =>
    rw [answered] at gives
    cases gives

/-- **What completes with honest tools can be planned,** for any languages among which the one of
the artifact is. -/
theorem Registry.Honest.planned {r : Registry Id} (honest : r.Honest) {steps : List Step}
    {planned : List (PlannedStep Id)} {current : Artifact} {results : List StepResult}
    (resolved : List.Forall₂ r.Resolves steps planned)
    (completes : Completes current planned results) (index : Nat) {incoming : List String}
    (expected : current.language ∈ incoming) :
    r.Planned index incoming steps (renumber index planned) := by
  induction completes generalizing steps index incoming with
  | nil =>
    cases resolved
    exact .nil
  | last accepted _ =>
    cases resolved with
    | cons resolves later =>
      cases later
      exact .cons ⟨resolves.registered, resolves.bound⟩ rfl ⟨_, expected, accepted⟩ .nil
  | cons accepted gives _ ih =>
    cases resolved with
    | cons resolves later =>
      refine .cons ⟨resolves.registered, resolves.bound⟩ rfl ⟨_, expected, accepted⟩ ?_
      exact ih later (index + 1) (honest.mem_predicted resolves gives)

/-- **Planning first refines running one step at a time,** and planning the requests of honest
tools loses none that would run. -/
theorem planning_refines_stepwise (r : Registry Id) (input : Artifact) (steps : List Step) :
    (∀ results, (r.run input steps).run = .ok results →
      (r.stepwise input steps).run = .ok results) ∧
    (r.Honest → ∀ results, (r.stepwise input steps).run = .ok results →
      (r.run input steps).run = .ok results) := by
  constructor
  · intro results isOk
    obtain ⟨planned, derived, completes⟩ := Registry.run_eq_ok_iff.1 isOk
    exact Registry.stepwiseFrom_eq_ok_iff.2 ⟨planned, derived.resolves, completes⟩
  · intro honest results isOk
    obtain ⟨planned, resolved, completes⟩ := Registry.stepwiseFrom_eq_ok_iff.1 isOk
    have derived := honest.planned resolved completes 0 (List.mem_singleton_self input.language)
    exact Registry.run_eq_ok_iff.2 ⟨_, derived, completes.renumber 0⟩

/-- A tool that forwards a text, unchanged, in the language that is selected. -/
def Tool.retagging : Tool Id where
  descriptor := ⟨"retag", "Retag", "", [Language.hlsl, Language.glsl],
    [Language.hlsl, Language.glsl],
    [.outputLanguage [Language.hlsl, Language.glsl] Language.glsl]⟩
  compile input args :=
    (args.string outputLanguageName).map fun language => .forward ⟨language, input.payload⟩ []

theorem Tool.honest_retagging : Tool.retagging.Honest := by
  intro raw args input result next _ answered gives
  cases selected : args.string outputLanguageName with
  | error failure =>
    change (args.string outputLanguageName).map _ = _ at answered
    rw [selected] at answered
    cases answered
  | ok language =>
    change (args.string outputLanguageName).map _ = _ at answered
    rw [selected] at answered
    cases answered
    cases gives
    rw [ToolDescriptor.predicted_of_selector rfl selected]
    exact List.mem_singleton_self language

/-- A chain of that tool that runs one step at a time runs with a plan. -/
theorem planning_refines_stepwise_retagging :
    let r := Registry.empty.offerAll [Tool.retagging]
    let input := Artifact.text Language.hlsl "main"
    let steps := [Step.ofTool "retag", (Step.ofTool "retag").withArgument "OutputLanguage" "HLSL"]
    let results := [StepResult.forward (.text Language.glsl "main") [], .forward input []]
    r.Honest ∧ (r.stepwise input steps).run = .ok results ∧
      (r.run input steps).run = .ok results := by
  intro r input steps results
  have honest : r.Honest := by
    intro name t found
    rcases Registry.mem_of_get?_offerAll found with before | member
    · cases before
    · cases List.mem_singleton.1 member
      exact Tool.honest_retagging
  have stepwise : (r.stepwise input steps).run = .ok results := by decide +kernel
  exact ⟨honest, stepwise, (planning_refines_stepwise r input steps).2 honest results stepwise⟩

end ShaderChain
