import ShaderChain.Proofs.Pipeline.Stepwise

/-!
# Splitting a run

A run of a request can be split at any point: the steps before the point run by
themselves, the last of them forwards an artifact, and the steps behind the
point run on it, with the same results as in the whole (`run_split`). The steps
behind the point are planned for one language instead of those predicted, and
from the first position instead of a later one; neither changes their run.

Two runs can be joined in the same way, provided that the plan of the first
expects the language of what its last step forwards.
-/

set_option autoImplicit false

namespace ShaderChain

namespace Registry

variable {r : Registry Id} {index : Nat} {incoming : List String} {steps : List Step}
  {planned : List (PlannedStep Id)}

/-- A part of a plan that completes on an artifact is a run of its own, planned for the language of
the artifact and from the first position. -/
theorem Planned.run_of_completes (derived : r.Planned index incoming steps planned)
    {input : Artifact} {results : List StepResult} (completes : Completes input planned results) :
    (r.run input steps).run = .ok results := by
  have own : r.Planned index [input.language] steps planned := by
    cases derived with
    | nil => exact .nil
    | cons resolves position accepted later =>
      exact .cons resolves position
        ⟨input.language, List.mem_singleton_self _, completes.first_accepts⟩ later
  exact run_eq_ok_iff.2 ⟨_, own.renumber 0, completes.renumber 0⟩

variable {input : Artifact} {first second : List Step}

/-- What comes out behind some results is forwarded by the last of them. -/
theorem exists_last_of_forwarded {early : List StepResult} {next : Artifact}
    (nonempty : early ≠ []) (forwards : forwarded input early = some next)
    (late : List StepResult) :
    ∃ result, (early ++ late)[early.length - 1]? = some result ∧ result.pipeable = some next := by
  have last := List.getLast?_eq_some_getLast nonempty
  have positive := List.length_pos_of_ne_nil nonempty
  refine ⟨early.getLast nonempty, ?_, ?_⟩
  · rw [List.getElem?_append_left (by omega), ← List.getLast?_eq_getElem?, last]
  · rw [← forwarded_of_getLast? last input]
    exact forwards

/-- A run splits into a run of the steps before a point and one of those behind it. -/
theorem split_of_run (firstSteps : first ≠ []) (secondSteps : second ≠ [])
    {results : List StepResult} (isOk : (r.run input (first ++ second)).run = .ok results) :
    (r.run input first).run = .ok (results.take first.length) ∧
      ∃ result next, results[first.length - 1]? = some result ∧ result.pipeable = some next ∧
        (r.run next second).run = .ok (results.drop first.length) := by
  obtain ⟨planned, derived, completes⟩ := run_eq_ok_iff.1 isOk
  obtain ⟨before, after, rfl, head, tail⟩ := planned_append_iff.1 derived
  obtain ⟨early, late, next, rfl, runs, forwards, goesOn⟩ :=
    (completes_append_iff (tail.ne_nil secondSteps)).1 completes
  have lengths : early.length = first.length := runs.length_eq.trans head.length_eq.symm
  have someEarly : early ≠ [] := by
    intro none
    rw [none] at lengths
    exact firstSteps (List.length_eq_zero_iff.1 lengths.symm)
  obtain ⟨result, found, gives⟩ := exists_last_of_forwarded someEarly forwards late
  rw [← lengths, List.take_left, List.drop_left]
  exact ⟨head.run_of_completes runs, result, next, found, gives, tail.run_of_completes goesOn⟩

/-- Two runs join if the plan of the first expects what its last step forwards. -/
theorem run_of_parts (secondSteps : second ≠ []) {p : Plan Id} {s : PlannedStep Id}
    {before after : List StepResult} {last : StepResult} {next : Artifact}
    (isPlan : r.plan input.language first = .ok p) (isLast : p.steps.getLast? = some s)
    (isOk : (r.run input first).run = .ok before) (lastResult : before.getLast? = some last)
    (gives : last.pipeable = some next) (expected : next.language ∈ s.predicted)
    (isOkLater : (r.run next second).run = .ok after) :
    (r.run input (first ++ second)).run = .ok (before ++ after) := by
  have head := plan_eq_ok_iff.1 isPlan
  have runs := (run_eq_ok_iff_of_plan isPlan).1 isOk
  obtain ⟨later, derived, completes⟩ := run_eq_ok_iff.1 isOkLater
  have comesOut : emitted [input.language] p.steps = s.predicted := by
    rw [emitted, isLast]
    rfl
  have wide : r.Planned 0 (emitted [input.language] p.steps) second later := by
    refine derived.widen fun language member => ?_
    rw [comesOut, List.mem_singleton.1 member]
    exact expected
  have tail := wide.renumber (0 + first.length)
  refine run_eq_ok_iff.2 ⟨_, planned_append_iff.2 ⟨_, _, rfl, head, tail⟩, ?_⟩
  refine (completes_append_iff (tail.ne_nil secondSteps)).2
    ⟨before, after, next, rfl, runs, ?_, completes.renumber _⟩
  rw [forwarded_of_getLast? lastResult, gives]

end Registry

/-- **A run can be split at any point, and runs can be joined** where the plan expects it. -/
theorem run_split (r : Registry Id) (input : Artifact) {first second : List Step}
    (firstSteps : first ≠ []) (secondSteps : second ≠ []) :
    (∀ results, (r.run input (first ++ second)).run = .ok results →
      (r.run input first).run = .ok (results.take first.length) ∧
        ∃ result next, results[first.length - 1]? = some result ∧
          result.pipeable = some next ∧
            (r.run next second).run = .ok (results.drop first.length)) ∧
    (∀ p s before last next after, r.plan input.language first = .ok p →
      p.steps.getLast? = some s → (r.run input first).run = .ok before →
        before.getLast? = some last → last.pipeable = some next → next.language ∈ s.predicted →
          (r.run next second).run = .ok after →
            (r.run input (first ++ second)).run = .ok (before ++ after)) := by
  constructor
  · intro results isOk
    exact Registry.split_of_run firstSteps secondSteps isOk
  · intro p s before last next after isPlan isLast isOk lastResult gives expected isOkLater
    exact Registry.run_of_parts secondSteps isPlan isLast isOk lastResult gives expected isOkLater

/-- A run of two steps splits behind the first, and the two runs join to it again. -/
theorem run_split_retagging :
    let r := Registry.empty.offerAll [Tool.retagging]
    let input := Artifact.text Language.hlsl "main"
    let first := [Step.ofTool "retag"]
    let second := [(Step.ofTool "retag").withArgument "OutputLanguage" "HLSL"]
    let between := Artifact.text Language.glsl "main"
    let before := [StepResult.forward between []]
    let after := [StepResult.forward input []]
    (r.run input first).run = .ok before ∧ (r.run between second).run = .ok after ∧
      (r.run input (first ++ second)).run = .ok (before ++ after) := by
  intro r input first second between before after
  have whole : (r.run input (first ++ second)).run = .ok (before ++ after) := by decide +kernel
  obtain ⟨splits, joins⟩ := run_split r input (List.cons_ne_nil _ _ : first ≠ [])
    (List.cons_ne_nil _ _ : second ≠ [])
  obtain ⟨runs, result, next, found, gives, goesOn⟩ := splits _ whole
  cases found
  cases gives
  have last : (r.plan input.language first).toOption.bind (·.steps.getLast?.map
      PlannedStep.predicted) = some [Language.glsl] := by decide +kernel
  cases isPlan : r.plan input.language first with
  | error error =>
    rw [isPlan] at last
    cases last
  | ok p =>
    rw [isPlan] at last
    obtain ⟨s, isLast, predicted⟩ := Option.map_eq_some_iff.1 last
    have expected : between.language ∈ s.predicted := by
      rw [predicted]
      exact List.mem_singleton_self _
    exact ⟨runs, goesOn, joins p s before _ between after isPlan isLast runs rfl rfl expected goesOn⟩

end ShaderChain
