import ShaderChain.Pipeline.Run
import ShaderChain.Proofs.Outcome

/-!
# The calls of a run

A tool that is watched notes each of its calls, what it was given and what it
answered, and behaves as before. Watching every tool of a run therefore changes
nothing about the run (`Registry.run'_watched`) and shows which calls it makes.

`Traced` derives from planned steps and an artifact what a run can end in and
the calls it makes on the way: a call for each step in order, on what the call
before it forwarded, up to the end, to a step that refuses its input, or to a
step that has nothing for the next. Whatever the tools do, a watched run is
derived in this way (`runSteps_watched`). All that is said of the calls of a run
follows from the derivation by induction.
-/

set_option autoImplicit false

namespace ShaderChain

variable {m : Type → Type}

/-- A call of a tool: what it was given, and what it answered. -/
structure Call (m : Type → Type) where
  tool : Tool m
  input : Artifact
  arguments : BoundArguments
  answer : Except ToolError StepResult

/-- What the step of an answer results in: what was answered, or the report of the failure. -/
def StepResult.ofAnswer : Except ToolError StepResult → StepResult
  | .ok result => result
  | .error error => .ofFailure error

/-- What the step of the call results in. -/
def Call.result (c : Call m) : StepResult := .ofAnswer c.answer

/-- What a call in a list of calls should get: the first the input, each later one what the call
before it forwarded. -/
def incoming (input : Artifact) (calls : List (Call m)) : Nat → Option Artifact
  | 0 => some input
  | i + 1 => calls[i]?.bind fun call => call.result.pipeable

/-! ## Watching -/

section Watching

variable [Monad m]

/-- The tool, noting its calls behind those noted before. -/
def Tool.watched (t : Tool m) : Tool (StateT (List (Call m)) m) where
  descriptor := t.descriptor
  compile input args := do
    let answer ← t.compile input args
    modify fun calls => calls ++ [⟨t, input, args, answer⟩]
    return answer

/-- The planned step with its tool watched. -/
def PlannedStep.watched (s : PlannedStep m) : PlannedStep (StateT (List (Call m)) m) :=
  ⟨s.index, s.tool.watched, s.arguments⟩

/-- The plan with its tools watched. -/
def Plan.watched (p : Plan m) : Plan (StateT (List (Call m)) m) :=
  ⟨p.steps.map PlannedStep.watched⟩

/-- The registry with its tools watched. -/
def Registry.watched (r : Registry m) : Registry (StateT (List (Call m)) m) :=
  ⟨r.tools.map Tool.watched⟩

@[simp] theorem Tool.watched_descriptor (t : Tool m) : t.watched.descriptor = t.descriptor := rfl

theorem Registry.get?_watched (r : Registry m) (name : String) :
    r.watched.get? name = (r.get? name).map Tool.watched :=
  Table.get?_map _ _ _

/-- Planning looks at descriptors only. -/
theorem Registry.planStep_watched (r : Registry m) (index : Nat)
    (previous : Option (PlannedStep m)) (incoming : List String) (step : Step) :
    r.watched.planStep index (previous.map PlannedStep.watched) incoming step =
      (r.planStep index previous incoming step).map PlannedStep.watched := by
  rw [planStep, planStep, get?_watched]
  cases r.get? step.tool with
  | none => rfl
  | some tool =>
    have filtered : ((previous.map PlannedStep.watched).filter fun _ => incoming.isEmpty) =
        (previous.filter fun _ => incoming.isEmpty).map PlannedStep.watched := by
      cases previous with
      | none => rfl
      | some last => cases incoming <;> rfl
    dsimp only [Option.map_some]
    rw [filtered]
    cases previous.filter fun _ => incoming.isEmpty with
    | some last => rfl
    | none =>
      dsimp only [Option.map_none]
      by_cases accepted : incoming.any tool.descriptor.accepts = true
      · have watchedAccepts : incoming.any tool.watched.descriptor.accepts = true := accepted
        rw [if_pos accepted, if_pos watchedAccepts, Tool.watched_descriptor]
        cases bind tool.descriptor.parameters step.arguments <;> rfl
      · have watchedRefuses : ¬ incoming.any tool.watched.descriptor.accepts = true := accepted
        rw [if_neg accepted, if_neg watchedRefuses]
        rfl

theorem Registry.planFrom_watched (r : Registry m) (index : Nat)
    (previous : Option (PlannedStep m)) (incoming : List String) (steps : List Step) :
    r.watched.planFrom index (previous.map PlannedStep.watched) incoming steps =
      (r.planFrom index previous incoming steps).map (List.map PlannedStep.watched) := by
  induction steps generalizing index previous incoming with
  | nil => rfl
  | cons step rest ih =>
    rw [planFrom, planFrom, planStep_watched]
    cases r.planStep index previous incoming step with
    | error error => rfl
    | ok planned =>
      have tail := ih (index + 1) (some planned)
        (planned.tool.descriptor.predictedLanguages planned.arguments)
      dsimp only [Except.map, Option.map_some] at tail ⊢
      change (r.watched.planFrom (index + 1) (some planned.watched)
        (planned.tool.descriptor.predictedLanguages planned.arguments) rest).map _ = _
      rw [tail]
      cases r.planFrom (index + 1) (some planned)
        (planned.tool.descriptor.predictedLanguages planned.arguments) rest <;> rfl

theorem Registry.plan_watched (r : Registry m) (language : String) (steps : List Step) :
    r.watched.plan language steps = (r.plan language steps).map Plan.watched := by
  have planned := planFrom_watched r 0 none [language] steps
  rw [plan, plan]
  rw [Option.map_none] at planned
  rw [planned]
  cases r.planFrom 0 none [language] steps <;> rfl

/-- Running a watched tool runs the tool and notes the call. -/
theorem Tool.run_execute_watched [LawfulMonad m] (t : Tool m) (input : Artifact)
    (args : BoundArguments) (calls : List (Call m)) :
    (t.watched.execute input args).run calls =
      (fun answer => (StepResult.ofAnswer answer, calls ++ [⟨t, input, args, answer⟩])) <$>
        t.compile input args := by
  rw [map_eq_pure_bind]
  simp only [execute, watched, StateT.run_bind, bind_assoc, StateT.run_monadLift, monadLift_self,
    StateT.run_modify, pure_bind]
  congr
  funext answer
  cases answer <;> rfl

theorem Tool.execute_eq [LawfulMonad m] (t : Tool m) (input : Artifact) (args : BoundArguments) :
    t.execute input args = StepResult.ofAnswer <$> t.compile input args := by
  rw [map_eq_pure_bind, execute]
  congr
  funext answer
  cases answer <;> rfl

/-- **Watching changes nothing about the running of planned steps.** -/
theorem run_runSteps_watched [LawfulMonad m] (current : Artifact) (planned : List (PlannedStep m))
    (calls : List (Call m)) :
    Prod.fst <$> (runSteps current (planned.map PlannedStep.watched)).run calls =
      runSteps current planned := by
  induction planned generalizing current calls with
  | nil => exact map_pure _ _
  | cons s rest ih =>
    rw [List.map_cons, runSteps, runSteps]
    by_cases accepted : s.tool.descriptor.accepts current.language = true
    · have watchedAccepts : s.watched.tool.descriptor.accepts current.language = true := accepted
      rw [if_pos accepted, if_pos watchedAccepts, StateT.run_bind]
      change Prod.fst <$> ((s.tool.watched.execute current s.arguments).run calls >>= _) = _
      rw [Tool.run_execute_watched, Tool.execute_eq, bind_map_left, bind_map_left, map_bind]
      refine bind_congr fun answer => ?_
      dsimp only
      cases (StepResult.ofAnswer answer).pipeable with
      | none => cases rest <;> exact map_pure _ _
      | some next =>
        dsimp only
        rw [StateT.run_bind, map_bind, ← ih next, bind_map_left]
        exact bind_congr fun out => map_pure _ _
    · have watchedRefuses : ¬ s.watched.tool.descriptor.accepts current.language = true := accepted
      rw [if_neg accepted, if_neg watchedRefuses]
      exact map_pure _ _

/-- Watching the tools of a plan changes nothing about its run. -/
theorem Plan.run'_watched [LawfulMonad m] (p : Plan m) (input : Artifact) (calls : List (Call m)) :
    (p.watched.run input).run' calls = p.run input :=
  run_runSteps_watched input p.steps calls

/-- **Watching the tools of a registry changes nothing about a run.** -/
theorem Registry.run'_watched [LawfulMonad m] (r : Registry m) (input : Artifact)
    (steps : List Step) (calls : List (Call m)) :
    (r.watched.run input steps).run' calls = r.run input steps := by
  rw [run, run, plan_watched]
  cases r.plan input.language steps with
  | error error => exact map_pure _ _
  | ok p => exact p.run'_watched input calls

end Watching

/-! ## The derivation of a run -/

/-- A call made for a planned step on an artifact that its tool takes. -/
structure Call.MadeFor (call : Call m) (s : PlannedStep m) (current : Artifact) : Prop where
  tool : call.tool = s.tool
  input : call.input = current
  arguments : call.arguments = s.arguments
  accepted : s.tool.descriptor.accepts current.language = true

/-- What running planned steps on an artifact can end in, and the calls that it makes. -/
inductive Traced : Artifact → List (PlannedStep m) → Except PipelineError (List StepResult) →
    List (Call m) → Prop where
  /-- No step is left. -/
  | done {current : Artifact} : Traced current [] (.ok []) []
  /-- The next tool does not take what there is. -/
  | refused {current : Artifact} {s : PlannedStep m} {rest : List (PlannedStep m)}
      (refuses : s.tool.descriptor.accepts current.language = false) :
      Traced current (s :: rest) (.error (s.incompatible current.language)) []
  /-- The last step has nothing to forward. -/
  | ended {current : Artifact} {s : PlannedStep m} {call : Call m} (made : call.MadeFor s current)
      (nothing : call.result.pipeable = none) : Traced current [s] (.ok [call.result]) [call]
  /-- A step before the last has nothing to forward. -/
  | stopped {current : Artifact} {s next : PlannedStep m} {rest : List (PlannedStep m)}
      {call : Call m} (made : call.MadeFor s current) (nothing : call.result.pipeable = none) :
      Traced current (s :: next :: rest) (.error s.noPipeableOutput) [call]
  /-- A step forwards an artifact. -/
  | forwarded {current next : Artifact} {s : PlannedStep m} {rest : List (PlannedStep m)}
      {call : Call m} {outcome : Except PipelineError (List StepResult)} {calls : List (Call m)}
      (made : call.MadeFor s current) (gives : call.result.pipeable = some next)
      (later : Traced next rest outcome calls) :
      Traced current (s :: rest) (outcome.map (call.result :: ·)) (call :: calls)

/-- **Every watched run is derived,** and its calls have every property that calls of its steps'
tools always have. -/
theorem runSteps_watched [Monad m] [LawfulMonad m] {property : Call m → Prop}
    (planned : List (PlannedStep m)) (current : Artifact) (before : List (Call m))
    (answers : ∀ s ∈ planned, ∀ input,
      Always (fun answer => property ⟨s.tool, input, s.arguments, answer⟩)
        (s.tool.compile input s.arguments)) :
    Always
      (fun out => ∃ calls, out.2 = before ++ calls ∧ Traced current planned out.1 calls ∧
        ∀ call ∈ calls, property call)
      ((runSteps current (planned.map PlannedStep.watched)).run before) := by
  induction planned generalizing current before with
  | nil => exact Always.pure ⟨[], (List.append_nil _).symm, .done, List.forall_mem_nil _⟩
  | cons s rest ih =>
    rw [List.map_cons, runSteps]
    cases accepted : s.tool.descriptor.accepts current.language with
    | false =>
      have watchedRefuses : ¬ s.watched.tool.descriptor.accepts current.language = true := by
        change ¬ s.tool.descriptor.accepts current.language = true
        rw [accepted]
        exact Bool.false_ne_true
      rw [if_neg watchedRefuses]
      exact Always.pure ⟨[], (List.append_nil _).symm, .refused accepted, List.forall_mem_nil _⟩
    | true =>
      have watchedAccepts : s.watched.tool.descriptor.accepts current.language = true := accepted
      rw [if_pos watchedAccepts, StateT.run_bind]
      change Always _ ((s.tool.watched.execute current s.arguments).run before >>= _)
      rw [Tool.run_execute_watched, bind_map_left]
      refine (answers s List.mem_cons_self current).bind fun answer holds => ?_
      let call : Call m := ⟨s.tool, current, s.arguments, answer⟩
      have made : call.MadeFor s current := ⟨rfl, rfl, rfl, accepted⟩
      dsimp only
      cases gives : (StepResult.ofAnswer answer).pipeable with
      | none =>
        cases rest with
        | nil =>
          exact Always.pure ⟨[call], rfl, .ended made gives, List.forall_mem_singleton.2 holds⟩
        | cons next later =>
          exact Always.pure ⟨[call], rfl, .stopped made gives, List.forall_mem_singleton.2 holds⟩
      | some next =>
        dsimp only
        rw [StateT.run_bind]
        refine (ih next (before ++ [call]) fun t member =>
          answers t (List.mem_cons_of_mem _ member)).bind fun out derived => ?_
        obtain ⟨calls, noted, traced, properties⟩ := derived
        refine Always.pure ⟨call :: calls, ?_, .forwarded made gives traced, ?_⟩
        · rw [noted, List.append_assoc, List.singleton_append]
        · exact List.forall_mem_cons.2 ⟨holds, properties⟩

/-! ## What a derivation says of the calls -/

theorem incoming_cons {call : Call m} {current next : Artifact}
    (gives : call.result.pipeable = some next) (calls : List (Call m)) (i : Nat) :
    incoming current (call :: calls) (i + 1) = incoming next calls i := by
  cases i with
  | zero => exact gives
  | succ i => rfl

/-- A call before which so many were made that the next is at a place, forwarded what comes there. -/
theorem exists_call_of_length (input : Artifact) {calls : List (Call m)} {i : Nat}
    (many : calls.length = i + 1) :
    ∃ call, calls[i]? = some call ∧ incoming input calls (i + 1) = call.result.pipeable := by
  have short : i < calls.length := many ▸ Nat.lt_succ_self i
  refine ⟨calls[i], List.getElem?_eq_getElem short, ?_⟩
  rw [incoming, List.getElem?_eq_getElem short]
  rfl

namespace Traced

variable {current : Artifact} {planned : List (PlannedStep m)}
  {outcome : Except PipelineError (List StepResult)} {calls : List (Call m)}

/-- Each call is made for the step at its place, on what the call before it forwarded. -/
theorem call_madeFor (traced : Traced current planned outcome calls) {i : Nat} {call : Call m}
    (found : calls[i]? = some call) :
    ∃ s, planned[i]? = some s ∧ call.MadeFor s call.input ∧
      incoming current calls i = some call.input := by
  induction traced generalizing i with
  | done => cases found
  | refused => cases found
  | @ended current s head made =>
    cases i with
    | zero =>
      cases found
      exact ⟨s, rfl, made.input.symm ▸ made, congrArg some made.input.symm⟩
    | succ i => cases found
  | @stopped current s next rest head made =>
    cases i with
    | zero =>
      cases found
      exact ⟨s, rfl, made.input.symm ▸ made, congrArg some made.input.symm⟩
    | succ i => cases found
  | @forwarded current next s rest head outcome calls made gives _ ih =>
    cases i with
    | zero =>
      cases found
      exact ⟨s, rfl, made.input.symm ▸ made, congrArg some made.input.symm⟩
    | succ i =>
      rw [List.getElem?_cons_succ] at found
      obtain ⟨t, isStep, madeLater, gets⟩ := ih found
      exact ⟨t, isStep, madeLater, (incoming_cons gives calls i).trans gets⟩

/-- A run that ends well made a call for every step, gives their results, and forwarded an
artifact to every step. -/
theorem of_ok (traced : Traced current planned outcome calls) {results : List StepResult}
    (isOk : outcome = .ok results) :
    calls.length = planned.length ∧ results = calls.map Call.result ∧
      ∀ i, i < planned.length → ∃ next, incoming current calls i = some next := by
  induction traced generalizing results with
  | done =>
    cases isOk
    exact ⟨rfl, rfl, fun i short => absurd short (Nat.not_lt_zero i)⟩
  | refused => cases isOk
  | stopped => cases isOk
  | @ended current _ head made =>
    cases isOk
    refine ⟨rfl, rfl, fun i short => ?_⟩
    cases i with
    | zero => exact ⟨current, rfl⟩
    | succ i => exact absurd (Nat.lt_of_succ_lt_succ short) (Nat.not_lt_zero i)
  | @forwarded current next s rest head outcome calls made gives _ ih =>
    cases outcome with
    | error error => cases isOk
    | ok later =>
      cases isOk
      obtain ⟨lengths, rfl, forwards⟩ := ih rfl
      refine ⟨congrArg (· + 1) lengths, rfl, fun i short => ?_⟩
      cases i with
      | zero => exact ⟨current, rfl⟩
      | succ i =>
        rw [incoming_cons gives]
        exact forwards i (Nat.lt_of_succ_lt_succ short)

/-- In a run that ends well every result but the last is that of a call which forwarded an
artifact. -/
theorem forwards_of_ok (traced : Traced current planned outcome calls)
    {results : List StepResult} (isOk : outcome = .ok results) {i : Nat} {result : StepResult}
    (found : results[i]? = some result) (notLast : i + 1 < results.length) :
    ∃ call next, calls[i]? = some call ∧ call.result = result ∧ result.pipeable = some next := by
  obtain ⟨lengths, rfl, forwards⟩ := traced.of_ok isOk
  rw [List.length_map] at notLast
  obtain ⟨next, gets⟩ := forwards (i + 1) (lengths ▸ notLast)
  rw [List.getElem?_map] at found
  obtain ⟨call, called, rfl⟩ := Option.map_eq_some_iff.1 found
  rw [incoming, called] at gets
  exact ⟨call, next, called, rfl, gets⟩

/-- A run that fails stopped either behind a step that forwarded nothing to the next one or in
front of a step that does not take what it got. -/
theorem of_error (traced : Traced current planned outcome calls) {error : PipelineError}
    (failed : outcome = .error error) :
    ∃ i s, planned[i]? = some s ∧
      ((i + 1 < planned.length ∧ calls.length = i + 1 ∧ incoming current calls (i + 1) = none ∧
          error = s.noPipeableOutput) ∨
        (calls.length = i ∧ ∃ next, incoming current calls i = some next ∧
          s.tool.descriptor.accepts next.language = false ∧
            error = s.incompatible next.language)) := by
  induction traced with
  | done => cases failed
  | ended => cases failed
  | @refused current s rest refuses =>
    cases failed
    exact ⟨0, s, rfl, .inr ⟨rfl, current, rfl, refuses, rfl⟩⟩
  | @stopped current s next rest head made nothing =>
    cases failed
    exact ⟨0, s, rfl, .inl ⟨Nat.succ_lt_succ (Nat.succ_pos _), rfl, nothing, rfl⟩⟩
  | @forwarded current next s rest head outcome calls made gives _ ih =>
    cases outcome with
    | ok results => cases failed
    | error error =>
      cases failed
      obtain ⟨i, t, isStep, ending⟩ := ih rfl
      refine ⟨i + 1, t, isStep, ?_⟩
      rcases ending with ⟨short, many, nothing, rfl⟩ | ⟨many, last, gets, refuses, rfl⟩
      · exact .inl ⟨Nat.succ_lt_succ short, congrArg (· + 1) many,
          (incoming_cons gives calls _).trans nothing, rfl⟩
      · exact .inr ⟨congrArg (· + 1) many, last, (incoming_cons gives calls i).trans gets,
          refuses, rfl⟩

end Traced

end ShaderChain
