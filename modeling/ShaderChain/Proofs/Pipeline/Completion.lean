import ShaderChain.Pipeline.Run
import ShaderChain.Proofs.Pipeline.Planning

/-!
# Runs that succeed

A tool without effects answers the same arguments and input in the same way each
time. Of planned steps with such tools `Completes` derives what a run that
succeeds gives: each step's tool takes what comes in, and each step but possibly
the last forwards an artifact. A run succeeds exactly with what can be derived
(`runSteps_eq_ok_iff`), and a run of a request exactly if a plan for it
completes (`Registry.run_eq_ok_iff`).

Planned steps in two parts complete exactly if the first part does, and the
second does on what the first forwards (`completes_append_iff`). The positions
that the plan noted do not matter (`Completes.renumber`).
-/

set_option autoImplicit false

namespace ShaderChain

/-- What a planned step results in on an artifact. -/
def PlannedStep.result (s : PlannedStep Id) (current : Artifact) : StepResult :=
  (s.tool.execute current s.arguments).run

/-- Planned steps that run to their end on an artifact, with their results. -/
inductive Completes : Artifact → List (PlannedStep Id) → List StepResult → Prop where
  | nil {current : Artifact} : Completes current [] []
  /-- The last step may forward nothing. -/
  | last {current : Artifact} {s : PlannedStep Id}
      (accepted : s.tool.descriptor.accepts current.language = true)
      (nothing : (s.result current).pipeable = none) : Completes current [s] [s.result current]
  | cons {current next : Artifact} {s : PlannedStep Id} {rest : List (PlannedStep Id)}
      {results : List StepResult}
      (accepted : s.tool.descriptor.accepts current.language = true)
      (gives : (s.result current).pipeable = some next) (later : Completes next rest results) :
      Completes current (s :: rest) (s.result current :: results)

/-! ## Running completes -/

/-- Running a step whose tool takes the artifact goes on with what the step forwards. -/
theorem runSteps_cons {current : Artifact} {s : PlannedStep Id} {rest : List (PlannedStep Id)}
    (accepted : s.tool.descriptor.accepts current.language = true) :
    (runSteps current (s :: rest)).run =
      match (s.result current).pipeable with
      | some next => (runSteps next rest).run.map (s.result current :: ·)
      | none => if rest.isEmpty then .ok [s.result current] else .error s.noPipeableOutput := by
  rw [runSteps, if_pos accepted]
  change (match (s.result current).pipeable with
    | some next => _
    | none => _ : Id _) = _
  cases (s.result current).pipeable with
  | some next => rfl
  | none => rfl

/-- **Running succeeds exactly with what completes.** -/
theorem runSteps_eq_ok_iff {current : Artifact} {planned : List (PlannedStep Id)}
    {results : List StepResult} :
    (runSteps current planned).run = .ok results ↔ Completes current planned results := by
  induction planned generalizing current results with
  | nil =>
    constructor
    · intro isOk
      cases isOk
      exact .nil
    · intro completes
      cases completes
      rfl
  | cons s rest ih =>
    constructor
    · intro isOk
      by_cases accepted : s.tool.descriptor.accepts current.language = true
      · rw [runSteps_cons accepted] at isOk
        cases gives : (s.result current).pipeable with
        | some next =>
          rw [gives] at isOk
          cases tail : (runSteps next rest).run with
          | error error => simp only [tail] at isOk; cases isOk
          | ok later =>
            simp only [tail] at isOk
            cases isOk
            exact .cons accepted gives (ih.1 tail)
        | none =>
          rw [gives] at isOk
          cases rest with
          | nil =>
            cases isOk
            exact .last accepted gives
          | cons next later => cases isOk
      · rw [runSteps, if_neg accepted] at isOk
        cases isOk
    · intro completes
      cases completes with
      | last accepted nothing =>
        rw [runSteps_cons accepted, nothing]
        rfl
      | cons accepted gives later =>
        rw [runSteps_cons accepted, gives]
        simp only [ih.2 later]
        rfl

/-- A request that is planned runs successfully exactly if its plan completes. -/
theorem Registry.run_eq_ok_iff_of_plan {r : Registry Id} {input : Artifact} {steps : List Step}
    {p : Plan Id} {results : List StepResult} (isPlan : r.plan input.language steps = .ok p) :
    (r.run input steps).run = .ok results ↔ Completes input p.steps results := by
  rw [run, isPlan]
  exact runSteps_eq_ok_iff

/-- **A request runs successfully exactly if a plan for it completes.** -/
theorem Registry.run_eq_ok_iff {r : Registry Id} {input : Artifact} {steps : List Step}
    {results : List StepResult} :
    (r.run input steps).run = .ok results ↔
      ∃ planned, r.Planned 0 [input.language] steps planned ∧ Completes input planned results := by
  constructor
  · intro isOk
    cases isPlan : r.plan input.language steps with
    | error error => rw [run, isPlan] at isOk; cases isOk
    | ok p => exact ⟨p.steps, plan_eq_ok_iff.1 isPlan, (run_eq_ok_iff_of_plan isPlan).1 isOk⟩
  · rintro ⟨planned, derived, completes⟩
    have isPlan : r.plan input.language steps = .ok ⟨planned⟩ := plan_eq_ok_iff.2 derived
    exact (run_eq_ok_iff_of_plan isPlan).2 completes

/-! ## Parts of a run -/

/-- What comes out behind the results of a run on an artifact. -/
def forwarded (current : Artifact) (results : List StepResult) : Option Artifact :=
  (results.getLast?.map StepResult.pipeable).getD (some current)

theorem forwarded_cons {current next : Artifact} {result : StepResult}
    (gives : result.pipeable = some next) (results : List StepResult) :
    forwarded current (result :: results) = forwarded next results := by
  cases results with
  | nil => exact gives
  | cons second later => rfl

/-- Behind results there comes out what the last of them forwards. -/
theorem forwarded_of_getLast? {results : List StepResult} {result : StepResult}
    (last : results.getLast? = some result) (current : Artifact) :
    forwarded current results = result.pipeable := by
  rw [forwarded, last]
  rfl

namespace Completes

variable {current : Artifact} {planned : List (PlannedStep Id)} {results : List StepResult}

theorem length_eq (completes : Completes current planned results) :
    results.length = planned.length := by
  induction completes with
  | nil => rfl
  | last => rfl
  | cons _ _ _ ih => exact congrArg (· + 1) ih

/-- The positions of the steps do not matter. -/
theorem renumber (completes : Completes current planned results) (start : Nat) :
    Completes current (renumber start planned) results := by
  induction completes generalizing start with
  | nil => exact .nil
  | @last current s accepted nothing =>
    exact @Completes.last current { s with index := start } accepted nothing
  | @cons current next s rest results accepted gives _ ih =>
    exact @Completes.cons current next { s with index := start } _ _ accepted gives (ih (start + 1))

/-- The first of steps that complete takes the artifact. -/
theorem first_accepts {s : PlannedStep Id} {rest : List (PlannedStep Id)}
    (completes : Completes current (s :: rest) results) :
    s.tool.descriptor.accepts current.language = true := by
  cases completes with
  | last accepted _ => exact accepted
  | cons accepted _ _ => exact accepted

end Completes

/-- **Steps in two parts complete exactly if each part does,** the second on what the first
forwards. -/
theorem completes_append_iff {current : Artifact} {before after : List (PlannedStep Id)}
    {results : List StepResult} (more : after ≠ []) :
    Completes current (before ++ after) results ↔
      ∃ first second next, results = first ++ second ∧ Completes current before first ∧
        forwarded current first = some next ∧ Completes next after second := by
  constructor
  · intro completes
    induction before generalizing current results with
    | nil => exact ⟨[], results, current, rfl, .nil, rfl, completes⟩
    | cons s rest ih =>
      rw [List.cons_append] at completes
      generalize joined : rest ++ after = later at completes
      cases completes with
      | last => exact absurd (List.append_eq_nil_iff.1 joined).2 more
      | cons accepted gives tail =>
        subst joined
        obtain ⟨first, second, next, rfl, head, forwards, ends⟩ := ih tail
        refine ⟨_ :: first, second, next, rfl, .cons accepted gives head, ?_, ends⟩
        rw [forwarded_cons gives]
        exact forwards
  · rintro ⟨first, second, next, rfl, head, forwards, ends⟩
    induction head with
    | nil =>
      cases forwards
      exact ends
    | last _ nothing =>
      cases nothing.symm.trans forwards
    | cons accepted gives _ ih =>
      rw [forwarded_cons gives] at forwards
      exact .cons accepted gives (ih forwards)

end ShaderChain
