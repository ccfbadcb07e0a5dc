import Mathlib.Data.Nat.Find
import ShaderChain.Proofs.Pipeline.Contract

/-!
# The first violation of a request

What may come into each step of a request can be told without planning: the
language of the input, and behind a step the languages that its tool may emit
with its arguments (`Registry.languagesInto`). A step passes when its tool is
there, something may come in, some of it is taken, and the arguments are bound
(`Registry.Passes`).

Planning succeeds exactly when every step passes. Otherwise its error is that of
the first step that does not, and of the first check that this step fails
(`Registry.Violation`). Since a plan is made step by step, the step that fails
stands behind steps that were planned (`Planned.planFrom_append`); these carry
the languages that may come in (`Planned.emitted_eq`) and the name of the tool
to blame when there are none (`Planned.inFront_eq`). What comes behind a
violation does not matter.
-/

set_option autoImplicit false

namespace ShaderChain

/-! ## Alternatives in words -/

/-- Languages in words: one by itself; of several the last behind an `or`, and those before it
separated by commas. -/
inductive Alternative : List String → String → Prop where
  | one (language : String) : Alternative [language] language
  | several {before : List String} (some : before ≠ []) (last : String) :
      Alternative (before ++ [last]) (Text.joined ", " before ++ " or " ++ last)

theorem describeLanguages_append {before : List String} (some : before ≠ []) (last : String) :
    describeLanguages (before ++ [last]) = Text.joined ", " before ++ " or " ++ last := by
  rw [describeLanguages, List.reverse_append, List.reverse_singleton, List.singleton_append]
  cases reversed : before.reverse with
  | nil => exact absurd (List.reverse_eq_nil_iff.1 reversed) some
  | cons next rest =>
    dsimp only
    rw [← reversed, List.reverse_reverse]

/-- Some languages have one text. -/
theorem alternative_iff {languages : List String} {text : String} (inhabited : languages ≠ []) :
    Alternative languages text ↔ text = describeLanguages languages := by
  constructor
  · intro alternative
    cases alternative with
    | one => rfl
    | several some last => exact (describeLanguages_append some last).symm
  · rintro rfl
    rw [← List.dropLast_concat_getLast inhabited]
    by_cases single : languages.dropLast = []
    · rw [single]
      exact .one _
    · rw [describeLanguages_append single]
      exact .several single _

namespace Registry

variable {m : Type → Type} {r : Registry m}

/-! ## What a request says of its steps -/

/-- The languages that a step may emit; none if its tool is not there or refuses its arguments. -/
def emittedBy (r : Registry m) (step : Step) : List String :=
  match r.get? step.tool with
  | none => []
  | some tool =>
    match bind tool.descriptor.parameters step.arguments with
    | .error _ => []
    | .ok arguments => tool.descriptor.predictedLanguages arguments

/-- The languages that may come into the steps of a request, `incoming` being those for the
first. -/
def languagesInto (r : Registry m) (incoming : List String) (steps : List Step) : Nat → List String
  | 0 => incoming
  | i + 1 => (steps[i]?.map r.emittedBy).getD []

/-- The position and the tool of the step in front of another. -/
def inFront? (steps : List Step) : Nat → Option (Nat × String)
  | 0 => none
  | i + 1 => steps[i]?.map fun step => (i, step.tool)

/-- A step passes every check: its tool is registered, there are languages that may come in, one
of them is taken, and the arguments are bound. -/
structure Passes (r : Registry m) (incoming : List String) (step : Step) (tool : Tool m) : Prop where
  registered : r.get? step.tool = some tool
  inhabited : incoming ≠ []
  accepted : ∃ language ∈ incoming, tool.descriptor.accepts language = true
  bound : ∃ arguments, bind tool.descriptor.parameters step.arguments = .ok arguments

/-- A step fails a check and passes those before it; `behind` is the step in front of it. -/
inductive Violation (r : Registry m) (index : Nat) (behind : Option (Nat × String))
    (incoming : List String) (step : Step) : PipelineError → Prop where
  /-- The tool is not registered. -/
  | unknown (absent : r.get? step.tool = none) :
      Violation r index behind incoming step (.unknownTool index step.tool)
  /-- The step in front has nothing to forward, and is to blame. -/
  | terminal {tool : Tool m} {position : Nat} {name : String}
      (registered : r.get? step.tool = some tool) (blamed : behind = some (position, name))
      (nothing : incoming = []) :
      Violation r index behind incoming step (.noPipeableOutput position name)
  /-- No language that may come in is taken. -/
  | language {tool : Tool m} {got : String} (registered : r.get? step.tool = some tool)
      (inhabited : incoming ≠ [])
      (refused : ∀ language ∈ incoming, tool.descriptor.accepts language = false)
      (described : Alternative incoming got) :
      Violation r index behind incoming step
        (.incompatibleStage index step.tool got tool.descriptor.inputLanguages)
  /-- An argument is refused. -/
  | arguments {tool : Tool m} {source : ParameterError}
      (registered : r.get? step.tool = some tool)
      (accepted : ∃ language ∈ incoming, tool.descriptor.accepts language = true)
      (refused : bind tool.descriptor.parameters step.arguments = .error source) :
      Violation r index behind incoming step (.invalidParameter index step.tool source)

/-- The step of a request at a position passes. -/
def PassesAt (r : Registry m) (incoming : List String) (steps : List Step) (i : Nat) : Prop :=
  ∃ step tool, steps[i]? = some step ∧ r.Passes (r.languagesInto incoming steps i) step tool

/-- The step of a request at a position is in violation. -/
def ViolatedAt (r : Registry m) (language : String) (steps : List Step) (i : Nat)
    (error : PipelineError) : Prop :=
  ∃ step, steps[i]? = some step ∧
    r.Violation i (inFront? steps i) (r.languagesInto [language] steps i) step error

theorem Resolves.emittedBy_eq {step : Step} {s : PlannedStep m} (resolves : r.Resolves step s) :
    r.emittedBy step = s.predicted := by
  rw [emittedBy, resolves.registered]
  dsimp only
  rw [resolves.bound]
  rfl

theorem languagesInto_cons (incoming : List String) (step : Step) (rest : List Step) (i : Nat) :
    r.languagesInto incoming (step :: rest) (i + 1) =
      r.languagesInto (r.emittedBy step) rest i := by
  cases i with
  | zero => rfl
  | succ i => rfl

/-- Later steps do not matter for what may come into a step. -/
theorem languagesInto_append (incoming : List String) {before : List Step} (after : List Step)
    {i : Nat} (within : i ≤ before.length) :
    r.languagesInto incoming (before ++ after) i = r.languagesInto incoming before i := by
  cases i with
  | zero => rfl
  | succ i => rw [languagesInto, languagesInto, List.getElem?_append_left within]

theorem inFront?_append {before : List Step} (after : List Step) {i : Nat}
    (within : i ≤ before.length) : inFront? (before ++ after) i = inFront? before i := by
  cases i with
  | zero => rfl
  | succ i => rw [inFront?, inFront?, List.getElem?_append_left within]

/-- Later steps do not matter for whether a step passes. -/
theorem passesAt_append_iff {incoming : List String} {before after : List Step} {i : Nat}
    (within : i < before.length) :
    r.PassesAt incoming (before ++ after) i ↔ r.PassesAt incoming before i := by
  rw [PassesAt, PassesAt, languagesInto_append incoming after (Nat.le_of_lt within),
    List.getElem?_append_left within]

/-- More steps keep a violation. -/
theorem ViolatedAt.append {language : String} {steps : List Step} {i : Nat} {error : PipelineError}
    (violated : r.ViolatedAt language steps i error) (more : List Step) :
    i < steps.length ∧ r.ViolatedAt language (steps ++ more) i error := by
  obtain ⟨step, isStep, violation⟩ := violated
  obtain ⟨short, _⟩ := List.getElem?_eq_some_iff.1 isStep
  have within := Nat.le_of_lt short
  refine ⟨short, step, (List.getElem?_append_left short).trans isStep, ?_⟩
  rw [inFront?_append more within, languagesInto_append _ more within]
  exact violation

/-! ## Steps that pass -/

/-- **Steps can be planned exactly when each of them passes.** -/
theorem exists_planned_iff {index : Nat} {incoming : List String} {steps : List Step} :
    (∃ planned, r.Planned index incoming steps planned) ↔
      ∀ i < steps.length, r.PassesAt incoming steps i := by
  induction steps generalizing index incoming with
  | nil => exact ⟨fun _ i short => absurd short (Nat.not_lt_zero i), fun _ => ⟨[], .nil⟩⟩
  | cons step rest ih =>
    constructor
    · rintro ⟨planned, derived⟩ i short
      cases derived with
      | @cons _ _ _ s _ later resolves position accepted tail =>
        cases i with
        | zero =>
          exact ⟨step, s.tool, rfl, resolves.registered, ne_nil_of_accepted accepted, accepted,
            s.arguments, resolves.bound⟩
        | succ i =>
          have passes := ih.1 ⟨later, tail⟩ i (Nat.lt_of_succ_lt_succ short)
          rw [PassesAt, languagesInto_cons, resolves.emittedBy_eq]
          exact passes
    · intro passes
      obtain ⟨_, tool, isStep, registered, _, accepted, arguments, bound⟩ :=
        passes 0 (Nat.zero_lt_succ _)
      cases isStep
      have resolves : r.Resolves step ⟨index, tool, arguments⟩ := ⟨registered, bound⟩
      have laterPass : ∀ i < rest.length, r.PassesAt (r.emittedBy step) rest i := by
        intro i short
        rw [PassesAt, ← languagesInto_cons incoming]
        exact passes (i + 1) (Nat.succ_lt_succ short)
      obtain ⟨later, tail⟩ := ih.2 laterPass
      rw [resolves.emittedBy_eq] at tail
      exact ⟨_, .cons resolves rfl accepted tail⟩

/-- Steps that pass in a longer request can be planned. -/
theorem exists_planned_before {incoming : List String} {before after : List Step}
    (passes : ∀ i < before.length, r.PassesAt incoming (before ++ after) i) :
    ∃ planned, r.Planned 0 incoming before planned :=
  exists_planned_iff.2 fun i short => (passesAt_append_iff short).1 (passes i short)

/-- Planned steps emit at their end what may come into a step behind them. -/
theorem Planned.emitted_eq {index : Nat} {incoming : List String} {steps : List Step}
    {planned : List (PlannedStep m)} (derived : r.Planned index incoming steps planned) :
    emitted incoming planned = r.languagesInto incoming steps steps.length := by
  induction derived with
  | nil => rfl
  | cons resolves _ _ _ ih =>
    rw [emitted_cons, ih, List.length_cons, languagesInto_cons, resolves.emittedBy_eq]

/-- The last planned step is the one in front of a step behind them. -/
theorem Planned.inFront_eq {incoming : List String} {steps : List Step}
    {planned : List (PlannedStep m)} (sound : r.Sound)
    (derived : r.Planned 0 incoming steps planned) :
    (planned.getLast?.map fun s => (s.index, s.tool.name)) = inFront? steps steps.length := by
  have same := derived.length_eq
  rw [same, List.getLast?_eq_getElem?]
  cases many : planned.length with
  | zero =>
    rw [List.getElem?_eq_none (by omega)]
    rfl
  | succ i =>
    have isPlanned := List.getElem?_eq_getElem (show i < planned.length by omega)
    obtain ⟨step, isStep, resolves⟩ := derived.exists_step isPlanned
    rw [inFront?, isStep, Nat.add_sub_cancel, isPlanned, Option.map_some, Option.map_some,
      resolves.name_eq sound, derived.index_eq isPlanned, Nat.zero_add]

/-! ## The step that fails -/

/-- A step that is in violation is not planned. -/
theorem Violation.planStep_eq {index : Nat} {previous : Option (PlannedStep m)}
    {incoming : List String} {step : Step} {error : PipelineError}
    (violation :
      r.Violation index (previous.map fun s => (s.index, s.tool.name)) incoming step error) :
    r.planStep index previous incoming step = .error error := by
  rw [planStep]
  cases violation with
  | unknown absent => rw [absent]
  | terminal registered blamed nothing =>
    obtain ⟨s, rfl, same⟩ := Option.map_eq_some_iff.1 blamed
    cases same
    rw [registered, nothing]
    rfl
  | @language tool _ registered inhabited refused described =>
    have notTaken : ¬ incoming.any tool.descriptor.accepts = true := by
      rw [List.any_eq_true]
      rintro ⟨language, member, accepts⟩
      rw [refused language member] at accepts
      cases accepts
    rw [registered]
    dsimp only
    rw [notTerminal_of_ne_nil inhabited, if_neg notTaken, (alternative_iff inhabited).1 described]
  | arguments registered accepted refused =>
    rw [registered]
    dsimp only
    rw [notTerminal_of_ne_nil (ne_nil_of_accepted accepted),
      if_pos (List.any_eq_true.2 accepted), refused]

/-- A step that is not planned is in violation, provided that something comes in if it is the
first. -/
theorem violation_of_planStep {index : Nat} {previous : Option (PlannedStep m)}
    {incoming : List String} {step : Step} {error : PipelineError}
    (first : previous = none → incoming ≠ [])
    (failed : r.planStep index previous incoming step = .error error) :
    r.Violation index (previous.map fun s => (s.index, s.tool.name)) incoming step error := by
  rw [planStep] at failed
  cases found : r.get? step.tool with
  | none =>
    rw [found] at failed
    cases failed
    exact .unknown found
  | some tool =>
    rw [found] at failed
    dsimp only at failed
    by_cases inhabited : incoming = []
    · cases previous with
      | none => exact absurd inhabited (first rfl)
      | some s =>
        rw [inhabited] at failed
        cases failed
        exact .terminal found rfl inhabited
    · rw [notTerminal_of_ne_nil inhabited] at failed
      dsimp only at failed
      split at failed
      case isTrue accepted =>
        cases refused : bind tool.descriptor.parameters step.arguments with
        | error source =>
          rw [refused] at failed
          cases failed
          exact .arguments found (List.any_eq_true.1 accepted) refused
        | ok arguments =>
          rw [refused] at failed
          cases failed
      case isFalse accepted =>
        cases failed
        refine .language found inhabited ?_ ((alternative_iff inhabited).2 rfl)
        intro language member
        rw [← Bool.not_eq_true]
        exact fun accepts => accepted (List.any_eq_true.2 ⟨language, member, accepts⟩)

/-- Behind steps that are planned, planning goes on with what they may emit. -/
theorem Planned.planFrom_append {index : Nat} {incoming : List String} {before : List Step}
    {planned : List (PlannedStep m)} (derived : r.Planned index incoming before planned)
    (previous : Option (PlannedStep m)) (after : List Step) :
    r.planFrom index previous incoming (before ++ after) =
      (r.planFrom (index + before.length) (planned.getLast?.or previous) (emitted incoming planned)
        after).map (planned ++ ·) := by
  induction derived generalizing previous with
  | @nil index incoming =>
    change r.planFrom index previous incoming after = (r.planFrom index previous incoming after).map id
    cases r.planFrom index previous incoming after <;> rfl
  | @cons index incoming step s steps rest resolves position accepted later ih =>
    have last : (s :: rest).getLast?.or previous = rest.getLast?.or (some s) := by
      rw [List.getLast?_cons, Option.or_some, Option.some_or]
    rw [List.cons_append, planFrom, planStep_eq_ok_iff.2 ⟨resolves, position, accepted⟩]
    dsimp only
    rw [← PlannedStep.predicted, ih (some s), last, emitted_cons, List.length_cons,
      Nat.add_comm steps.length, ← Nat.add_assoc]
    cases r.planFrom (index + 1 + steps.length) (rest.getLast?.or (some s))
      (emitted s.predicted rest) after <;> rfl

/-- The step of a request at a position, with those before and behind it. -/
theorem exists_split {steps : List Step} {i : Nat} {step : Step} (isStep : steps[i]? = some step) :
    ∃ before after, steps = before ++ step :: after ∧ before.length = i := by
  obtain ⟨short, same⟩ := List.getElem?_eq_some_iff.1 isStep
  refine ⟨steps.take i, steps.drop (i + 1), ?_, List.length_take_of_le (Nat.le_of_lt short)⟩
  rw [← same, List.getElem_cons_drop, List.take_append_drop]

section Request

variable {language : String} {steps : List Step} {error : PipelineError}

/-- A request whose step is in violation, behind steps that pass, has the error of that step. -/
theorem plan_of_violatedAt (sound : r.Sound) {i : Nat}
    (violated : r.ViolatedAt language steps i error)
    (passes : ∀ j < i, r.PassesAt [language] steps j) : r.plan language steps = .error error := by
  obtain ⟨step, isStep, violation⟩ := violated
  obtain ⟨before, after, rfl, rfl⟩ := exists_split isStep
  obtain ⟨planned, derived⟩ := exists_planned_before passes
  rw [inFront?_append _ (Nat.le_refl _), languagesInto_append _ _ (Nat.le_refl _),
    ← derived.inFront_eq sound, ← derived.emitted_eq] at violation
  rw [plan, derived.planFrom_append, planFrom, Option.or_none, Nat.zero_add, violation.planStep_eq]
  rfl

/-- A request that cannot be planned has a first step that does not pass. -/
theorem exists_first_not_passing (failed : r.plan language steps = .error error) :
    ∃ i < steps.length, ¬ r.PassesAt [language] steps i ∧ ∀ j < i, r.PassesAt [language] steps j := by
  classical
  have some : ∃ i, i < steps.length ∧ ¬ r.PassesAt [language] steps i := by
    by_contra none
    obtain ⟨planned, derived⟩ : ∃ planned, r.Planned 0 [language] steps planned := by
      apply exists_planned_iff.2
      intro i short
      by_contra fails
      exact none ⟨i, short, fails⟩
    rw [plan, planFrom_eq_ok_iff.2 derived] at failed
    cases failed
  obtain ⟨short, fails⟩ := Nat.find_spec some
  refine ⟨Nat.find some, short, fails, fun j earlier => ?_⟩
  by_contra failsEarlier
  exact Nat.find_min some earlier ⟨Nat.lt_trans earlier short, failsEarlier⟩

/-- The error of a request is that of its first step that does not pass. -/
theorem exists_violatedAt (sound : r.Sound) (failed : r.plan language steps = .error error) :
    ∃ i, r.ViolatedAt language steps i error ∧ ∀ j < i, r.PassesAt [language] steps j := by
  obtain ⟨i, short, fails, passes⟩ := exists_first_not_passing failed
  have isStep := List.getElem?_eq_getElem short
  revert isStep
  generalize steps[i] = step
  intro isStep
  obtain ⟨before, after, rfl, rfl⟩ := exists_split isStep
  obtain ⟨planned, derived⟩ := exists_planned_before passes
  rw [plan, derived.planFrom_append, planFrom, Option.or_none, Nat.zero_add] at failed
  cases head : r.planStep before.length planned.getLast? (emitted [language] planned) step with
  | ok s =>
    obtain ⟨resolves, _, accepted⟩ := planStep_eq_ok_iff.1 head
    rw [derived.emitted_eq, ← languagesInto_append _ (step :: after) (Nat.le_refl _)] at accepted
    have passesHere : r.PassesAt [language] (before ++ step :: after) before.length :=
      ⟨step, s.tool, isStep, resolves.registered, ne_nil_of_accepted accepted, accepted,
        s.arguments, resolves.bound⟩
    exact absurd passesHere fails
  | error found =>
    rw [head] at failed
    cases failed
    have first : planned.getLast? = none → emitted [language] planned ≠ [] := by
      intro none
      rw [emitted, none]
      exact List.cons_ne_nil _ _
    have violation := violation_of_planStep first head
    rw [derived.inFront_eq sound, derived.emitted_eq,
      ← inFront?_append (step :: after) (Nat.le_refl _),
      ← languagesInto_append _ (step :: after) (Nat.le_refl _)] at violation
    exact ⟨before.length, ⟨step, isStep, violation⟩, passes⟩

/-- What comes behind a violation does not matter. -/
theorem plan_append_of_error (sound : r.Sound) (more : List Step)
    (failed : r.plan language steps = .error error) :
    r.plan language (steps ++ more) = .error error := by
  obtain ⟨i, violated, passes⟩ := exists_violatedAt sound failed
  obtain ⟨short, violatedAfter⟩ := violated.append more
  apply plan_of_violatedAt sound violatedAfter
  intro j earlier
  exact (passesAt_append_iff (Nat.lt_trans earlier short)).2 (passes j earlier)

/-- The plan of a request begins with the plan of its first steps. -/
theorem plan_of_plan_append {more : List Step} {p : Plan m}
    (planned : r.plan language (steps ++ more) = .ok p) :
    r.plan language steps = .ok ⟨p.steps.take steps.length⟩ := by
  obtain ⟨before, after, same, head, _⟩ := planned_append_iff.1 (plan_eq_ok_iff.1 planned)
  apply plan_eq_ok_iff.2
  rw [same, head.length_eq, List.take_left]
  exact head

end Request

/-- **Planning is the check for the first violation.** For every registry that registering can lead
to, a request has a plan exactly when each of its steps passes, and the plan then has an entry for
each step, with its position, its registered tool and its bound arguments. Otherwise the error is
that of the first check failed by the first step that does not pass. More steps keep an error, and
a plan for more steps begins with the plan for the first. -/
theorem plan_first_violation (tools : List (Tool m)) (language : String) (steps : List Step) :
    let r := empty.offerAll tools
    ((∃ p, r.plan language steps = .ok p) ↔
      ∀ i < steps.length, r.PassesAt [language] steps i) ∧
    (∀ p, r.plan language steps = .ok p → p.steps.length = steps.length ∧
      ∀ (i : Nat) s, p.steps[i]? = some s →
        s.index = i ∧ ∃ step, steps[i]? = some step ∧ r.Resolves step s) ∧
    (∀ error, r.plan language steps = .error error ↔
      ∃ i, r.ViolatedAt language steps i error ∧ ∀ j < i, r.PassesAt [language] steps j) ∧
    ∀ more : List Step,
      (∀ error, r.plan language steps = .error error →
        r.plan language (steps ++ more) = .error error) ∧
      ∀ p, r.plan language (steps ++ more) = .ok p →
        r.plan language steps = .ok ⟨p.steps.take steps.length⟩ := by
  intro r
  have sound : r.Sound := sound_empty.offerAll tools
  refine ⟨?_, ?_, ?_, fun more => ⟨fun error => ?_, fun p => plan_of_plan_append⟩⟩
  · rw [← @exists_planned_iff m r 0]
    constructor
    · rintro ⟨p, isPlan⟩
      exact ⟨p.steps, plan_eq_ok_iff.1 isPlan⟩
    · rintro ⟨planned, derived⟩
      exact ⟨⟨planned⟩, plan_eq_ok_iff.2 derived⟩
  · intro p isPlan
    have derived := plan_eq_ok_iff.1 isPlan
    refine ⟨derived.length_eq.symm, fun i s isPlanned => ?_⟩
    exact ⟨(derived.index_eq isPlanned).trans (Nat.zero_add i), derived.exists_step isPlanned⟩
  · intro error
    constructor
    · exact exists_violatedAt sound
    · rintro ⟨i, violated, passes⟩
      exact plan_of_violatedAt sound violated passes
  · exact plan_append_of_error sound more

end Registry

/-- A tool that takes some languages and may emit others. -/
def Tool.between (name : String) (inputs outputs : List String) : Tool Id where
  descriptor := ⟨name, name, "", inputs, outputs, []⟩
  compile _ _ := pure (.ok (.terminal []))

/-- Of three steps the second is in violation, and names what may come in; the tool of the third
is not there, which does not matter. The first step alone has a plan. -/
theorem plan_first_violation_alternatives :
    let tools := [Tool.between "spread" [Language.glsl] [Language.glsl, Language.hlsl, Language.metal],
      Tool.between "assemble" [Language.spirv] []]
    let r := Registry.empty.offerAll tools
    let steps := [Step.ofTool "spread", .ofTool "assemble"]
    let error := PipelineError.incompatibleStage 1 "assemble" "GLSL, HLSL or Metal" [Language.spirv]
    r.plan Language.glsl steps = .error error ∧
      (∃ i, r.ViolatedAt Language.glsl steps i error ∧
        ∀ j < i, r.PassesAt [Language.glsl] steps j) ∧
      r.plan Language.glsl (steps ++ [.ofTool "missing"]) = .error error ∧
      ∃ p, r.plan Language.glsl [.ofTool "spread"] = .ok p ∧ p.steps.length = 1 := by
  intro tools r steps error
  have failed : r.plan Language.glsl steps = .error error := rfl
  obtain ⟨_, _, errors, later⟩ := Registry.plan_first_violation tools Language.glsl steps
  obtain ⟨_, entries, _, _⟩ :=
    Registry.plan_first_violation tools Language.glsl [Step.ofTool "spread"]
  refine ⟨failed, (errors error).1 failed, (later _).1 error failed, ?_⟩
  exact ⟨_, rfl, (entries _ rfl).1⟩

end ShaderChain
