import Mathlib.Data.List.Forall2
import ShaderChain.Pipeline.Plan

/-!
# What a plan says of its steps

A plan is made step by step. `Registry.Planned` derives the planned steps of a
request from a position and from the languages that may come in: each step's
tool is the registered one, its arguments are bound, and its tool takes one of
the incoming languages. Planning succeeds exactly with what can be derived
(`planFrom_eq_ok_iff`), whichever step stands before the first.

The derivation does not care where a request begins. More incoming languages
keep it (`Planned.widen`), so does another first position
(`Planned.renumber`), and the derivation for a request in two parts is one for
each part, the second with the languages that the first may emit
(`planned_append_iff`).
-/

set_option autoImplicit false

namespace ShaderChain

/-! ## Predictions -/

namespace ToolDescriptor

variable {d : ToolDescriptor} {args : BoundArguments}

theorem predicted_of_no_selector
    (none : d.parameters.find? (·.outputLanguages?.isSome) = none) :
    d.predictedLanguages args = d.outputLanguages := by
  rw [predictedLanguages, selectedLanguage?, none]
  rfl

theorem predicted_of_selector {p : Parameter} {language : String}
    (selector : d.parameters.find? (·.outputLanguages?.isSome) = some p)
    (selected : args.string p.name = .ok language) : d.predictedLanguages args = [language] := by
  rw [predictedLanguages, selectedLanguage?, selector, Option.bind_some, selected]
  rfl

end ToolDescriptor

/-! ## Planned steps -/

variable {m : Type → Type}

namespace PlannedStep

/-- The languages that the step may emit. -/
def predicted (s : PlannedStep m) : List String :=
  s.tool.descriptor.predictedLanguages s.arguments

end PlannedStep

/-- The languages that planned steps may emit at their end, `incoming` being those that come in. -/
def emitted (incoming : List String) (planned : List (PlannedStep m)) : List String :=
  (planned.getLast?.map PlannedStep.predicted).getD incoming

/-- Planned steps with positions from `start` on. -/
def renumber (start : Nat) : List (PlannedStep m) → List (PlannedStep m)
  | [] => []
  | s :: rest => { s with index := start } :: renumber (start + 1) rest

theorem emitted_cons (incoming : List String) (s : PlannedStep m) (rest : List (PlannedStep m)) :
    emitted incoming (s :: rest) = emitted s.predicted rest := by
  cases rest with
  | nil => rfl
  | cons next later => rfl

namespace Registry

variable {r : Registry m}

/-- A planned step has the registered tool of a requested one, with its arguments bound. -/
structure Resolves (r : Registry m) (step : Step) (planned : PlannedStep m) : Prop where
  registered : r.get? step.tool = some planned.tool
  bound : bind planned.tool.descriptor.parameters step.arguments = .ok planned.arguments

/-- The planned steps of a request, from a position on and for the languages that may come in. -/
inductive Planned (r : Registry m) :
    Nat → List String → List Step → List (PlannedStep m) → Prop where
  | nil {index : Nat} {incoming : List String} : Planned r index incoming [] []
  | cons {index : Nat} {incoming : List String} {step : Step} {planned : PlannedStep m}
      {steps : List Step} {rest : List (PlannedStep m)}
      (resolves : r.Resolves step planned) (position : planned.index = index)
      (accepted : ∃ language ∈ incoming, planned.tool.descriptor.accepts language = true)
      (later : Planned r (index + 1) planned.predicted steps rest) :
      Planned r index incoming (step :: steps) (planned :: rest)

/-! ## Planning derives -/

/-- Where a language is taken there are languages that may come in. -/
theorem ne_nil_of_accepted {d : ToolDescriptor} {incoming : List String}
    (accepted : ∃ language ∈ incoming, d.accepts language = true) : incoming ≠ [] := by
  obtain ⟨language, member, _⟩ := accepted
  exact List.ne_nil_of_mem member

/-- The step before is not to blame if there are languages that may come in. -/
theorem notTerminal_of_ne_nil {previous : Option (PlannedStep m)} {incoming : List String}
    (inhabited : incoming ≠ []) : (previous.filter fun _ => incoming.isEmpty) = none := by
  rw [List.isEmpty_eq_false_iff.2 inhabited]
  cases previous <;> rfl

/-- One step is planned exactly if its tool is there and takes an incoming language, and its
arguments are bound. That a step before it is terminal shows in the incoming languages. -/
theorem planStep_eq_ok_iff {index : Nat} {previous : Option (PlannedStep m)}
    {incoming : List String} {step : Step} {planned : PlannedStep m} :
    r.planStep index previous incoming step = .ok planned ↔
      r.Resolves step planned ∧ planned.index = index ∧
        ∃ language ∈ incoming, planned.tool.descriptor.accepts language = true := by
  rw [planStep]
  constructor
  · intro isOk
    cases found : r.get? step.tool with
    | none => rw [found] at isOk; cases isOk
    | some tool =>
      rw [found] at isOk
      dsimp only at isOk
      split at isOk
      · cases isOk
      · split at isOk
        · rename_i accepted
          cases bound : bind tool.descriptor.parameters step.arguments with
          | error source => rw [bound] at isOk; cases isOk
          | ok arguments =>
            rw [bound] at isOk
            cases isOk
            exact ⟨⟨found, bound⟩, rfl, List.any_eq_true.1 accepted⟩
        · cases isOk
  · obtain ⟨position, tool, arguments⟩ := planned
    rintro ⟨⟨found, bound⟩, rfl, accepted⟩
    rw [found]
    dsimp only at bound ⊢
    rw [notTerminal_of_ne_nil (ne_nil_of_accepted accepted)]
    dsimp only
    rw [if_pos (List.any_eq_true.2 accepted), bound]

/-- **Planning succeeds exactly with what can be derived,** whatever stands before. -/
theorem planFrom_eq_ok_iff {index : Nat} {previous : Option (PlannedStep m)}
    {incoming : List String} {steps : List Step} {planned : List (PlannedStep m)} :
    r.planFrom index previous incoming steps = .ok planned ↔
      r.Planned index incoming steps planned := by
  induction steps generalizing index previous incoming planned with
  | nil =>
    rw [planFrom]
    constructor
    · intro isOk
      cases isOk
      exact .nil
    · intro derived
      cases derived
      rfl
  | cons step steps ih =>
    rw [planFrom]
    constructor
    · intro isOk
      cases first : r.planStep index previous incoming step with
      | error error => rw [first] at isOk; cases isOk
      | ok head =>
        rw [first] at isOk
        obtain ⟨resolves, position, accepted⟩ := planStep_eq_ok_iff.1 first
        cases tail : r.planFrom (index + 1) (some head)
            (head.tool.descriptor.predictedLanguages head.arguments) steps with
        | error error => simp only [tail] at isOk; cases isOk
        | ok rest =>
          simp only [tail] at isOk
          cases isOk
          exact .cons resolves position accepted (ih.1 tail)
    · intro derived
      cases derived with
      | cons resolves position accepted later =>
        rw [planStep_eq_ok_iff.2 ⟨resolves, position, accepted⟩]
        dsimp only
        rw [← PlannedStep.predicted, ih.2 later]
        rfl

/-- A request has a plan exactly if its planned steps can be derived from the input's language. -/
theorem plan_eq_ok_iff {language : String} {steps : List Step} {p : Plan m} :
    r.plan language steps = .ok p ↔ r.Planned 0 [language] steps p.steps := by
  obtain ⟨planned⟩ := p
  have derivation := @planFrom_eq_ok_iff m r 0 none [language] steps planned
  rw [← derivation, plan]
  cases r.planFrom 0 none [language] steps with
  | error error =>
    constructor
    · intro isOk
      cases isOk
    · intro isOk
      cases isOk
  | ok found =>
    constructor
    · intro isOk
      cases isOk
      rfl
    · intro isOk
      cases isOk
      rfl

namespace Planned

variable {index : Nat} {incoming : List String} {steps : List Step}
  {planned : List (PlannedStep m)}

theorem resolves (derived : r.Planned index incoming steps planned) :
    List.Forall₂ r.Resolves steps planned := by
  induction derived with
  | nil => exact .nil
  | cons resolves _ _ _ ih => exact .cons resolves ih

theorem length_eq (derived : r.Planned index incoming steps planned) :
    steps.length = planned.length :=
  derived.resolves.length_eq

/-- A plan for some steps has some steps. -/
theorem ne_nil (derived : r.Planned index incoming steps planned) (some : steps ≠ []) :
    planned ≠ [] := by
  intro none
  rw [none] at derived
  exact some (List.length_eq_zero_iff.1 derived.length_eq)

/-- The positions of the planned steps count up. -/
theorem index_eq (derived : r.Planned index incoming steps planned) {i : Nat}
    {s : PlannedStep m} (found : planned[i]? = some s) : s.index = index + i := by
  induction derived generalizing i with
  | nil => cases found
  | cons _ position _ _ ih =>
    cases i with
    | zero =>
      cases found
      exact position
    | succ i =>
      rw [ih found]
      omega

/-- The requested step of a planned one. -/
theorem exists_step (derived : r.Planned index incoming steps planned) {i : Nat}
    {s : PlannedStep m} (isPlanned : planned[i]? = some s) :
    ∃ step, steps[i]? = some step ∧ r.Resolves step s := by
  induction derived generalizing i with
  | nil => cases isPlanned
  | @cons _ _ step _ _ _ resolves _ _ _ ih =>
    cases i with
    | zero =>
      cases isPlanned
      exact ⟨step, rfl, resolves⟩
    | succ i => exact ih isPlanned

/-- The first step of a plan takes the language it was planned for. -/
theorem first_accepts {language : String} (derived : r.Planned index [language] steps planned)
    {s : PlannedStep m} (first : planned[0]? = some s) :
    s.tool.descriptor.accepts language = true := by
  cases derived with
  | nil => cases first
  | cons _ _ accepted _ =>
    cases first
    obtain ⟨found, member, accepts⟩ := accepted
    cases List.mem_singleton.1 member
    exact accepts

/-- A step that was planned behind another takes a language predicted for that one. -/
theorem accepts_next (derived : r.Planned index incoming steps planned) {i : Nat}
    {s t : PlannedStep m} (here : planned[i]? = some s) (next : planned[i + 1]? = some t) :
    ∃ language ∈ s.predicted, t.tool.descriptor.accepts language = true := by
  induction derived generalizing i with
  | nil => cases here
  | cons _ _ _ later ih =>
    cases i with
    | zero =>
      cases here
      cases later with
      | nil => cases next
      | cons _ _ accepted _ =>
        cases next
        exact accepted
    | succ i => exact ih here next

/-- A plan for some incoming languages is one for more of them. -/
theorem widen (derived : r.Planned index incoming steps planned) {more : List String}
    (subset : ∀ language ∈ incoming, language ∈ more) : r.Planned index more steps planned := by
  cases derived with
  | nil => exact .nil
  | cons resolves position accepted later =>
    obtain ⟨language, member, accepts⟩ := accepted
    exact .cons resolves position ⟨language, subset language member, accepts⟩ later

/-- A plan can begin at any position. -/
theorem renumber (derived : r.Planned index incoming steps planned) (start : Nat) :
    r.Planned start incoming steps (renumber start planned) := by
  induction derived generalizing start with
  | nil => exact .nil
  | cons resolves _ accepted _ ih => exact .cons ⟨resolves.1, resolves.2⟩ rfl accepted (ih _)

end Planned

/-- **A plan for a request in two parts is a plan for each part,** the second for the languages
that the first may emit. -/
theorem planned_append_iff {index : Nat} {incoming : List String} {first second : List Step}
    {planned : List (PlannedStep m)} :
    r.Planned index incoming (first ++ second) planned ↔
      ∃ before after, planned = before ++ after ∧ r.Planned index incoming first before ∧
        r.Planned (index + first.length) (emitted incoming before) second after := by
  constructor
  · intro derived
    induction first generalizing index incoming planned with
    | nil => exact ⟨[], planned, rfl, .nil, derived⟩
    | cons step steps ih =>
      cases derived with
      | @cons _ _ _ s _ rest resolves position accepted later =>
        obtain ⟨before, after, rfl, head, tail⟩ := ih later
        refine ⟨s :: before, after, rfl, .cons resolves position accepted head, ?_⟩
        rw [emitted_cons, List.length_cons, Nat.add_comm steps.length, ← Nat.add_assoc]
        exact tail
  · rintro ⟨before, after, rfl, head, tail⟩
    induction head with
    | nil => exact tail
    | cons resolves position accepted _ ih =>
      refine .cons resolves position accepted (ih ?_)
      rw [emitted_cons, List.length_cons, Nat.add_comm _ 1, ← Nat.add_assoc] at tail
      exact tail

end Registry

end ShaderChain
