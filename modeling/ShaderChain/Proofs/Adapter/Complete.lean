import ShaderChain.Proofs.Adapter.Dependable
import ShaderChain.Proofs.Pipeline.Planning
import ShaderChain.Proofs.Pipeline.Trace
import ShaderChain.Proofs.Registry.Reachable

/-!
# Plans over the built-in tools

The built-in tools can be registered with every configuration: whatever versions
are listed, the parameter that selects among them has a new name and its default
among its values (`wellFormed_of_mem_builtin`).

A plan over these tools can only be kept from its end by a program or a file.
The invariant that links the planning of a step with its run is that the step
forwards nothing or an artifact in the one language that was predicted for it,
so the next tool takes whatever comes (`Plan.Reliable`,
`builtin_plan_reliable`).
-/

set_option autoImplicit false

namespace ShaderChain

/-! ## Registering the built-in tools -/

theorem Toolchain.mem_appendNew {seen more : List String} {item : String}
    (member : item ∈ seen) : item ∈ appendNew seen more := by
  induction more generalizing seen with
  | nil => exact member
  | cons next rest ih =>
    rw [appendNew]
    split
    · exact ih member
    · exact ih (List.mem_append_left _ member)

/-- Every tool has the version `trunk`, whatever is configured for it. -/
theorem Toolchain.trunk_mem_versionsOf (t : Toolchain) (tool : String) :
    trunk ∈ t.versionsOf tool :=
  mem_appendNew (List.mem_singleton_self trunk)

/-- A selector of versions can be added to a well-formed descriptor without one. -/
theorem ToolDescriptor.WellFormed.withVersions {d : ToolDescriptor} (wellFormed : d.WellFormed)
    (fresh : versionName ∉ d.parameters.map Parameter.name) (t : Toolchain) :
    (d.withParameter (t.versionParameter d.name)).WellFormed := by
  obtain ⟨named, takes, distinct, declared, defaults⟩ := wellFormed
  have parses : (t.versionParameter d.name).parse trunk = .ok (.string trunk) := by
    have listed : (t.versionsOf d.name).contains trunk = true :=
      List.contains_iff_mem.2 (t.trunk_mem_versionsOf d.name)
    change (ParameterKind.parseListed "enum" (t.versionsOf d.name) trunk).mapError _ = _
    rw [ParameterKind.parseListed, if_pos listed]
    rfl
  refine ⟨named, takes, ?_, ?_, ?_⟩
  · change ((d.parameters ++ [t.versionParameter d.name]).map Parameter.name).Nodup
    rw [List.map_append, List.map_singleton, List.nodup_append]
    refine ⟨distinct, List.pairwise_singleton _ _, fun name own other version same => ?_⟩
    rw [same, List.mem_singleton.1 version] at own
    exact fresh own
  · intro p member
    rcases List.mem_append.1 member with own | version
    · exact declared p own
    · cases List.mem_singleton.1 version
      intro language selected
      cases selected
  · refine exists_bind_iff.2 fun p member => ?_
    rcases List.mem_append.1 member with own | version
    · exact exists_bind_iff.1 defaults p own
    · cases List.mem_singleton.1 version
      exact ⟨_, parses⟩

namespace Adapter

variable {m : Type → Type} [Monad m]

/-- The descriptors of the adapters are well formed and select no version themselves. -/
theorem wellFormed_descriptors :
    ∀ d ∈ descriptors, d.WellFormed ∧ versionName ∉ d.parameters.map Parameter.name := by
  have faultless : ∀ d ∈ descriptors,
      d.fault? = none ∧ versionName ∉ d.parameters.map Parameter.name := by decide +kernel
  intro d member
  exact (faultless d member).imp_left ToolDescriptor.fault?_eq_none_iff.1

theorem descriptor_of_mem_builtin {toolchain : Toolchain} {host : Host m} {t : Tool m}
    (member : t ∈ builtin toolchain host) :
    ∃ d ∈ descriptors, t.descriptor = d.withParameter (toolchain.versionParameter d.name) := by
  simp only [builtin, List.mem_cons, List.not_mem_nil, or_false] at member
  rcases member with rfl | rfl | rfl | rfl | rfl | rfl
  · exact ⟨Fxc.descriptor, by simp [descriptors], rfl⟩
  · exact ⟨Dxc.descriptor, by simp [descriptors], rfl⟩
  · exact ⟨Glslang.descriptor, by simp [descriptors], rfl⟩
  · exact ⟨SpirvCross.descriptor, by simp [descriptors], rfl⟩
  · exact ⟨Hlslcc.descriptor, by simp [descriptors], rfl⟩
  · exact ⟨Mali.descriptor, by simp [descriptors], rfl⟩

/-- Every built-in tool is well formed, whatever versions are configured. -/
theorem wellFormed_of_mem_builtin {toolchain : Toolchain} {host : Host m} {t : Tool m}
    (member : t ∈ builtin toolchain host) : t.descriptor.WellFormed := by
  obtain ⟨d, isAdapter, same⟩ := descriptor_of_mem_builtin member
  obtain ⟨wellFormed, fresh⟩ := wellFormed_descriptors d isAdapter
  rw [same]
  exact wellFormed.withVersions fresh toolchain

/-- Every configuration lets all built-in tools be registered. -/
theorem registry_fault_eq_none (tools : ToolsSection) (host : Host m) :
    (registry tools host).2 = none := by
  apply Registry.registerAll_of_wellFormed
  · intro t member
    exact wellFormed_of_mem_builtin member
  · change [Fxc.name, Dxc.name, Glslang.name, SpirvCross.name, Hlslcc.name, Mali.name].Nodup
    decide
  · intro t _
    rfl

theorem mem_builtin_of_get?_registry {tools : ToolsSection} {host : Host m} {name : String}
    {t : Tool m} (found : (registry tools host).1.get? name = some t) :
    t ∈ builtin (.ofSection tools) host := by
  obtain ⟨accepted, isPrefix, same⟩ :=
    Registry.empty.exists_offerAll_eq_registerAll (builtin (.ofSection tools) host)
  rw [registry, same] at found
  rcases Registry.mem_of_get?_offerAll found with before | member
  · cases before
  · exact isPrefix.subset member

/-- **Every registered built-in tool is well formed and dependable.** -/
theorem dependable_of_get?_registry [LawfulMonad m] {tools : ToolsSection} {host : Host m}
    {name : String} {t : Tool m} (found : (registry tools host).1.get? name = some t) :
    t.descriptor.WellFormed ∧ t.Dependable :=
  ⟨wellFormed_of_mem_builtin (mem_builtin_of_get?_registry found),
    dependable_of_mem_builtin (mem_builtin_of_get?_registry found)⟩

end Adapter

/-! ## Running plans over dependable tools -/

variable {m : Type → Type}

/-- What holds of a run of a plan over dependable tools and of its calls. -/
structure Plan.Reliable (p : Plan m) (outcome : Except PipelineError (List StepResult))
    (calls : List (Call m)) : Prop where
  /-- Each call is made for the planned step at its place. -/
  planned : ∀ (i : Nat) call, calls[i]? = some call →
    ∃ s, p.steps[i]? = some s ∧ call.MadeFor s call.input
  /-- The run fails only behind a call whose tool failed; no step gets a wrong language. -/
  failed : ∀ error, outcome = .error error → ∃ (i : Nat) (tool : String) (call : Call m)
    (failure : ToolError), error = .noPipeableOutput i tool ∧ calls[i]? = some call ∧
      call.answer = .error failure
  /-- No tool misses an argument or finds one of another type. -/
  external : ∀ call ∈ calls, ∀ failure, call.answer = .error failure → failure.IsExternal
  /-- What a step forwards is in the one language that was predicted when it was planned, as
  bytes exactly if that is a language of bytecode. -/
  predicted : ∀ (i : Nat) call next, calls[i]? = some call → call.result.pipeable = some next →
    ∃ s, p.steps[i]? = some s ∧ s.predicted = [next.language] ∧
      next.payload.isBinary = Language.isBinary next.language
  /-- Of the results of a run that succeeds only the last can report an error. -/
  clean : ∀ results, outcome = .ok results → ∀ (i : Nat) result, results[i]? = some result →
    i + 1 < results.length → result.hasErrors = false

namespace Registry

/-- Arguments that were bound in planning fit the parameters of the tool. -/
theorem Resolves.fits {r : Registry m} {step : Step} {s : PlannedStep m} (resolves : r.Resolves step s)
    (wellFormed : s.tool.descriptor.WellFormed) :
    s.arguments.Fits s.tool.descriptor.parameters :=
  BoundArguments.fits_of_bind resolves.bound wellFormed.distinct

end Registry

/-- An answer that forwards an artifact was predicted to be in its language. -/
theorem Tool.Answers.forwards {t : Tool m} {args : BoundArguments}
    {answer : Except ToolError StepResult} (answers : t.Answers args answer) {next : Artifact}
    (gives : (StepResult.ofAnswer answer).pipeable = some next) :
    t.descriptor.predictedLanguages args = [next.language] ∧
      next.payload.isBinary = Language.isBinary next.language ∧
        (StepResult.ofAnswer answer).hasErrors = false := by
  cases answer with
  | error failure => cases gives
  | ok result =>
    have language := answers.language
    rw [show result.pipeable = some next from gives] at language
    exact ⟨language, answers.payload next gives, answers.clean⟩

/-- An answer that forwards nothing is a failure, or nothing was predicted. -/
theorem Tool.Answers.forwards_nothing {t : Tool m} {args : BoundArguments}
    {answer : Except ToolError StepResult} (answers : t.Answers args answer)
    (nothing : (StepResult.ofAnswer answer).pipeable = none) :
    (∃ failure, answer = .error failure) ∨ t.descriptor.predictedLanguages args = [] := by
  cases answer with
  | error failure => exact .inl ⟨failure, rfl⟩
  | ok result =>
    have language := answers.language
    rw [show result.pipeable = none from nothing] at language
    exact .inr language

namespace Traced

variable {r : Registry m} {input : Artifact} {steps : List Step}
  {planned : List (PlannedStep m)} {outcome : Except PipelineError (List StepResult)}
  {calls : List (Call m)}

/-- What a call forwards is in the one language that was predicted for its step. -/
theorem call_predicted (traced : Traced input planned outcome calls)
    (answered : ∀ call ∈ calls, call.tool.Answers call.arguments call.answer) {i : Nat}
    {call : Call m} {next : Artifact} (called : calls[i]? = some call)
    (gives : call.result.pipeable = some next) :
    ∃ s, planned[i]? = some s ∧ s.predicted = [next.language] ∧
      next.payload.isBinary = Language.isBinary next.language := by
  obtain ⟨s, isStep, made, _⟩ := traced.call_madeFor called
  have answers := answered call (List.mem_of_getElem? called)
  obtain ⟨language, payload, _⟩ := answers.forwards gives
  rw [made.tool, made.arguments] at language
  exact ⟨s, isStep, language, payload⟩

/-- No step gets an artifact that its tool does not take: the tool was planned to take the one
language that was predicted. -/
theorem never_refused (derived : r.Planned 0 [input.language] steps planned)
    (traced : Traced input planned outcome calls)
    (answered : ∀ call ∈ calls, call.tool.Answers call.arguments call.answer)
    {s : PlannedStep m} {next : Artifact} (isStep : planned[calls.length]? = some s)
    (gets : incoming input calls calls.length = some next) :
    s.tool.descriptor.accepts next.language = true := by
  cases position : calls.length with
  | zero =>
    rw [position] at isStep gets
    cases gets
    exact derived.first_accepts isStep
  | succ i =>
    rw [position] at isStep gets
    obtain ⟨call, called, forwards⟩ := exists_call_of_length input position
    obtain ⟨before, isPlanned, language, _⟩ :=
      traced.call_predicted answered called (forwards.symm.trans gets)
    obtain ⟨taken, member, accepts⟩ := derived.accepts_next isPlanned isStep
    rw [language, List.mem_singleton] at member
    rw [← member]
    exact accepts

/-- A step before the last that forwards nothing failed: a step for which nothing was predicted is
the last of its plan. -/
theorem fails_of_nothing (derived : r.Planned 0 [input.language] steps planned)
    (traced : Traced input planned outcome calls)
    (answered : ∀ call ∈ calls, call.tool.Answers call.arguments call.answer) {i : Nat}
    {call : Call m} (called : calls[i]? = some call) (notLast : i + 1 < planned.length)
    (nothing : call.result.pipeable = none) : ∃ failure, call.answer = .error failure := by
  obtain ⟨s, isStep, made, _⟩ := traced.call_madeFor called
  have answers := answered call (List.mem_of_getElem? called)
  rcases answers.forwards_nothing nothing with failed | terminal
  · exact failed
  · have later := List.getElem?_eq_getElem notLast
    obtain ⟨language, member, _⟩ := derived.accepts_next isStep later
    rw [PlannedStep.predicted, ← made.tool, ← made.arguments, terminal] at member
    cases member

end Traced

/-- A run derived from a plan whose calls are answered as dependable tools do is reliable. -/
theorem Plan.Reliable.of_traced {r : Registry m} {input : Artifact} {steps : List Step}
    {p : Plan m} {outcome : Except PipelineError (List StepResult)} {calls : List (Call m)}
    (isPlan : r.plan input.language steps = .ok p)
    (traced : Traced input p.steps outcome calls)
    (answered : ∀ call ∈ calls, call.tool.Answers call.arguments call.answer) :
    p.Reliable outcome calls := by
  have derived := Registry.plan_eq_ok_iff.1 isPlan
  refine ⟨?_, ?_, ?_, ?_, ?_⟩
  · intro i call called
    obtain ⟨s, isStep, made, _⟩ := traced.call_madeFor called
    exact ⟨s, isStep, made⟩
  · intro error isError
    obtain ⟨i, s, isStep, ending⟩ := traced.of_error isError
    rcases ending with ⟨notLast, many, nothing, rfl⟩ | ⟨many, next, gets, refuses, rfl⟩
    · obtain ⟨call, called, forwards⟩ := exists_call_of_length input many
      obtain ⟨failure, failed⟩ := traced.fails_of_nothing derived answered called notLast
        (forwards.symm.trans nothing)
      have position : s.index = i := (derived.index_eq isStep).trans (Nat.zero_add i)
      refine ⟨i, s.tool.name, call, failure, ?_, called, failed⟩
      rw [PlannedStep.noPipeableOutput, position]
    · subst many
      rw [traced.never_refused derived answered isStep gets] at refuses
      cases refuses
  · intro call member failure isFailure
    have answers := answered call member
    rw [Tool.Answers, isFailure] at answers
    exact answers
  · intro i call next called gives
    exact traced.call_predicted answered called gives
  · intro results isOk i result found notLast
    obtain ⟨call, next, called, rfl, gives⟩ := traced.forwards_of_ok isOk found notLast
    exact ((answered call (List.mem_of_getElem? called)).forwards gives).2.2

namespace Adapter

variable [Monad m] [LawfulMonad m] {tools : ToolsSection} {host : Host m} {input : Artifact}
  {steps : List Step}

/-- **Every run of a plan over the built-in tools is derived,** and its calls are answered as
dependable tools do. -/
theorem always_traced {p : Plan m}
    (isPlan : (registry tools host).1.plan input.language steps = .ok p) :
    Always (fun out => Traced input p.steps out.1 out.2 ∧
        ∀ call ∈ out.2, call.tool.Answers call.arguments call.answer)
      ((p.watched.run input).run []) := by
  have derived := Registry.plan_eq_ok_iff.1 isPlan
  have answers : ∀ s ∈ p.steps, ∀ input,
      Always (s.tool.Answers s.arguments) (s.tool.compile input s.arguments) := by
    intro s member current
    obtain ⟨i, isStep⟩ := List.getElem?_of_mem member
    obtain ⟨step, _, resolves⟩ := derived.exists_step isStep
    obtain ⟨wellFormed, dependable⟩ := dependable_of_get?_registry resolves.registered
    exact dependable current s.arguments (resolves.fits wellFormed)
  refine (@runSteps_watched m _ _ (fun call => call.tool.Answers call.arguments call.answer)
    p.steps input [] answers).mono fun out traced => ?_
  obtain ⟨calls, noted, traced, answered⟩ := traced
  rw [noted, List.nil_append]
  exact ⟨traced, answered⟩

/-- The results of a run over the built-in tools that succeeds are one for each requested step, and
only the last of them can report an error. -/
theorem always_clean :
    Always (fun outcome => ∀ results, outcome = .ok results → results.length = steps.length ∧
        ∀ (i : Nat) result, results[i]? = some result → i + 1 < results.length →
          result.hasErrors = false)
      ((registry tools host).1.run input steps) := by
  rw [Registry.run]
  cases isPlan : (registry tools host).1.plan input.language steps with
  | error error =>
    refine Always.pure fun results isOk => ?_
    cases isOk
  | ok p =>
    dsimp only
    rw [← p.run'_watched input [], StateT.run'_eq]
    refine (always_traced isPlan).map Prod.fst fun out derived results isOk => ?_
    obtain ⟨traced, answered⟩ := derived
    obtain ⟨many, same, _⟩ := traced.of_ok isOk
    refine ⟨?_, (Plan.Reliable.of_traced isPlan traced answered).clean results isOk⟩
    rw [same, List.length_map, many, (Registry.plan_eq_ok_iff.1 isPlan).length_eq]

end Adapter

/-- **Planning over the built-in tools is complete.** Every configuration has them all registered,
and only a program or a file can keep a plan over them from its end, on every host. -/
theorem builtin_plan_reliable [Monad m] [LawfulMonad m] (tools : ToolsSection) (host : Host m) :
    (Adapter.registry tools host).2 = none ∧
      ∀ (input : Artifact) steps p,
        (Adapter.registry tools host).1.plan input.language steps = .ok p →
          (p.watched.run input).run' [] = p.run input ∧
            Always (fun out => p.Reliable out.1 out.2) ((p.watched.run input).run []) := by
  refine ⟨Adapter.registry_fault_eq_none tools host, fun input steps p isPlan => ?_⟩
  refine ⟨p.run'_watched input [], (Adapter.always_traced isPlan).mono fun out derived => ?_⟩
  exact .of_traced isPlan derived.1 derived.2

/-- A host whose first program succeeds and whose later ones crash. -/
def Host.failing : Host (StateM Nat) where
  environment? _ := return none
  configHome := return none
  isFile _ := return false
  isDirectory _ := return false
  hasEntry _ := return false
  list _ := return .ok []
  read _ := return .ok []
  write _ _ := return .ok ()
  makeDirectories _ := return .ok ()
  openWorkspace := return .ok ⟨"/tmp/work"⟩
  closeWorkspace _ := return
  launch _ := modifyGet fun launched =>
    (.finished (if launched = 0 then some 0 else none) [] [], launched + 1)

/-- Of a chain of three tools with odd versions the second fails on that host. -/
theorem builtin_plan_reliable_failing :
    let tools : ToolsSection :=
      ⟨some ⟨"/opt/bin"⟩, 30, .empty, Table.empty.insert "fxc" ["", "trunk", "10", "10"]⟩
    let input := Artifact.text Language.hlsl "float4 main();"
    let steps := [(Step.ofTool "fxc").withArgument "Version" "10", .ofTool "hlslcc", .ofTool "glslang"]
    let r := (Adapter.registry tools Host.failing).1
    ((r.run input steps).run 0).1 = .error (.noPipeableOutput 1 "hlslcc") ∧
      ∃ p, r.plan input.language steps = .ok p ∧
        let out := (((p.watched.run input).run []).run 0).1
        p.Reliable out.1 out.2 := by
  intro tools input steps r
  refine ⟨by decide +kernel, ?_⟩
  have isOk : (r.plan input.language steps).isOk = true := by decide +kernel
  cases isPlan : r.plan input.language steps with
  | error error =>
    rw [isPlan] at isOk
    cases isOk
  | ok p =>
    refine ⟨p, rfl, ?_⟩
    exact always_state_iff.1 ((builtin_plan_reliable tools Host.failing).2 input steps p isPlan).2 0

end ShaderChain
