import ShaderChain.Proofs.Parameter.Exactness
import ShaderChain.Proofs.Pipeline.Planning
import ShaderChain.Proofs.Pipeline.Violation
import ShaderChain.Proofs.Registry.Reachable

/-!
# Predictions of registered tools

What a tool is predicted to emit is read from its arguments under the name of a
parameter, and falls back to all of its output languages where nothing is read.
For a well-formed descriptor the fallback is taken only if there is no parameter
to read: its names being distinct, bound arguments hold the value of the first
selector (`WellFormed.selected`), and the value is among the languages that the
tool declares.

Well-formed descriptors also take arguments that name none of their parameters,
since these leave the defaults (`WellFormed.bind_of_untouched`). Registering
leads to well-formed descriptors only, and so both hold of every registered tool
(`Registry.predictions_sound`).
-/

set_option autoImplicit false

namespace ShaderChain

variable {m : Type → Type}

/-! ## Selectors -/

theorem Parameter.outputLanguages?_eq_some_iff {p : Parameter} {allowed : List String} :
    p.outputLanguages? = some allowed ↔ p.kind = .outputLanguage allowed := by
  rw [outputLanguages?]
  cases p.kind with
  | outputLanguage languages =>
    rw [Option.some.injEq, ParameterKind.outputLanguage.injEq]
  | string => exact ⟨nofun, nofun⟩
  | bool => exact ⟨nofun, nofun⟩
  | int min max => exact ⟨nofun, nofun⟩
  | choice languages => exact ⟨nofun, nofun⟩

namespace ToolDescriptor

/-- The first parameter of a descriptor that selects the output language, and what it selects
from. -/
structure FirstSelector (d : ToolDescriptor) (p : Parameter) (allowed : List String) : Prop where
  first : ∃ before after, d.parameters = before ++ p :: after ∧
    ∀ q ∈ before, q.outputLanguages? = none
  kind : p.kind = .outputLanguage allowed

namespace FirstSelector

variable {d : ToolDescriptor} {p : Parameter} {allowed : List String}

theorem mem (selector : d.FirstSelector p allowed) : p ∈ d.parameters := by
  obtain ⟨before, after, parts, _⟩ := selector.first
  rw [parts]
  exact List.mem_append_right _ List.mem_cons_self

/-- The first selector is the one whose value is looked up. -/
theorem find?_eq (selector : d.FirstSelector p allowed) :
    d.parameters.find? (·.outputLanguages?.isSome) = some p := by
  obtain ⟨before, after, parts, earlier⟩ := selector.first
  rw [List.find?_eq_some_iff_append]
  refine ⟨?_, before, after, parts, ?_⟩
  · rw [Parameter.outputLanguages?_eq_some_iff.2 selector.kind]
    rfl
  · intro q member
    rw [earlier q member]
    rfl

end FirstSelector

/-- A descriptor has a first selector or none at all. -/
theorem firstSelector_or_none (d : ToolDescriptor) :
    (∃ p allowed, d.FirstSelector p allowed) ∨
      d.parameters.find? (·.outputLanguages?.isSome) = none := by
  cases found : d.parameters.find? (·.outputLanguages?.isSome) with
  | none => exact .inr rfl
  | some p =>
    obtain ⟨selects, before, after, parts, earlier⟩ := List.find?_eq_some_iff_append.1 found
    obtain ⟨allowed, isAllowed⟩ := Option.isSome_iff_exists.1 selects
    refine .inl ⟨p, allowed, ⟨before, after, parts, ?_⟩,
      Parameter.outputLanguages?_eq_some_iff.1 isAllowed⟩
    intro q member
    simpa using earlier q member

/-! ## Predictions of well-formed descriptors -/

namespace WellFormed

variable {d : ToolDescriptor} {raw : Table String} {args : BoundArguments} {p : Parameter}
  {allowed : List String}

/-- A selector selects declared languages. -/
theorem declares (wellFormed : d.WellFormed) (selector : d.FirstSelector p allowed)
    {language : String} (listed : language ∈ allowed) : language ∈ d.outputLanguages := by
  apply wellFormed.declared p selector.mem
  rw [Parameter.outputLanguages?_eq_some_iff.2 selector.kind, Option.getD_some]
  exact listed

/-- **Bound arguments hold the language that the first selector selects,** and it is the
prediction. -/
theorem selected (wellFormed : d.WellFormed) (bound : bind d.parameters raw = .ok args)
    (selector : d.FirstSelector p allowed) :
    ∃ language, args.get? p.name = some (.string language) ∧ language ∈ allowed ∧
      d.predictedLanguages args = [language] := by
  obtain ⟨value, parsed, found, reads⟩ := reads_of_bind bound wellFormed.distinct selector.mem
  have admitted := Parameter.admits_of_parse parsed
  rw [selector.kind] at admitted reads
  cases reads with
  | @text language string =>
    exact ⟨language, found, admitted, predicted_of_selector selector.find?_eq string⟩

/-- A tool with a selector has an output language, since its defaults are bound. -/
theorem isTerminal_of_selector (wellFormed : d.WellFormed) (selector : d.FirstSelector p allowed) :
    d.isTerminal = false := by
  obtain ⟨args, bound⟩ := wellFormed.defaults
  obtain ⟨language, _, listed, _⟩ := wellFormed.selected bound selector
  exact List.isEmpty_eq_false_iff.2 (List.ne_nil_of_mem (wellFormed.declares selector listed))

/-- **What is predicted is declared.** -/
theorem mem_of_predicted (wellFormed : d.WellFormed) (bound : bind d.parameters raw = .ok args)
    {language : String} (predicted : language ∈ d.predictedLanguages args) :
    language ∈ d.outputLanguages := by
  rcases d.firstSelector_or_none with ⟨p, allowed, selector⟩ | none
  · obtain ⟨chosen, _, listed, only⟩ := wellFormed.selected bound selector
    rw [only, List.mem_singleton] at predicted
    rw [predicted]
    exact wellFormed.declares selector listed
  · rw [predicted_of_no_selector none] at predicted
    exact predicted

/-- **Nothing is predicted of terminal tools and of no others.** -/
theorem predicted_eq_nil_iff (wellFormed : d.WellFormed)
    (bound : bind d.parameters raw = .ok args) :
    d.predictedLanguages args = [] ↔ d.isTerminal = true := by
  rcases d.firstSelector_or_none with ⟨p, allowed, selector⟩ | none
  · obtain ⟨chosen, _, _, only⟩ := wellFormed.selected bound selector
    rw [only, wellFormed.isTerminal_of_selector selector]
    exact ⟨nofun, nofun⟩
  · rw [predicted_of_no_selector none, isTerminal, List.isEmpty_iff]

/-- **Arguments that name no parameter leave the defaults, and are bound.** -/
theorem bind_of_untouched (wellFormed : d.WellFormed)
    (untouched : ∀ p ∈ d.parameters, raw.get? p.name = none) :
    ∃ args, bind d.parameters raw = .ok args := by
  obtain ⟨args, bound⟩ := wellFormed.defaults
  refine ⟨args, ?_⟩
  rw [← bound]
  exact bind_eq_of_same untouched

end WellFormed

end ToolDescriptor

/-! ## Registered tools -/

namespace Registry

/-- No argument of a step has the name of a parameter of the step's tool. -/
def Untouched (r : Registry m) (step : Step) : Prop :=
  ∀ t, r.get? step.tool = some t → ∀ p ∈ t.descriptor.parameters,
    step.arguments.get? p.name = none

/-- A step of a sound registry whose arguments name no parameter is not in violation for its
arguments. -/
theorem Violation.ne_invalidParameter {r : Registry m} {index : Nat}
    {behind : Option (Nat × String)} {incoming : List String} {step : Step} {error : PipelineError}
    (violation : r.Violation index behind incoming step error) (sound : r.Sound)
    (untouched : r.Untouched step) (position : Nat) (tool : String) (source : ParameterError) :
    error ≠ .invalidParameter position tool source := by
  cases violation with
  | unknown absent => exact nofun
  | terminal registered blamed nothing => exact nofun
  | language registered inhabited refused described => exact nofun
  | @arguments t fault registered accepted refused =>
    obtain ⟨_, wellFormed⟩ := sound _ _ registered
    obtain ⟨args, bound⟩ := wellFormed.bind_of_untouched (untouched t registered)
    rw [bound] at refused
    cases refused

/-- **Predictions of registered tools are sound.** Whatever tools are offered to a registry, of a
registered tool with bound arguments only declared languages are predicted, and none exactly if the
tool is terminal. A tool with a parameter that selects the output language is not terminal, and the
value bound to the first such parameter is all that is predicted. Steps whose arguments name no
parameter of their tools are never refused for an argument. -/
theorem predictions_sound (tools : List (Tool m)) :
    let r := Registry.empty.offerAll tools
    (∀ name t, r.get? name = some t → ∀ raw args, bind t.descriptor.parameters raw = .ok args →
      (∀ language ∈ t.descriptor.predictedLanguages args,
        language ∈ t.descriptor.outputLanguages) ∧
      (t.descriptor.predictedLanguages args = [] ↔ t.descriptor.isTerminal = true) ∧
      ∀ p allowed, t.descriptor.FirstSelector p allowed →
        t.descriptor.isTerminal = false ∧
        ∃ language, args.get? p.name = some (.string language) ∧ language ∈ allowed ∧
          t.descriptor.predictedLanguages args = [language]) ∧
    ∀ language steps, (∀ step ∈ steps, r.Untouched step) →
      ∀ index tool source,
        r.plan language steps ≠ .error (.invalidParameter index tool source) := by
  intro r
  have sound : r.Sound := sound_empty.offerAll tools
  constructor
  · intro name t registered raw args bound
    obtain ⟨_, wellFormed⟩ := sound name t registered
    refine ⟨fun _ => wellFormed.mem_of_predicted bound, wellFormed.predicted_eq_nil_iff bound, ?_⟩
    intro p allowed selector
    exact ⟨wellFormed.isTerminal_of_selector selector, wellFormed.selected bound selector⟩
  · intro language steps untouched index tool source failed
    obtain ⟨i, ⟨step, isStep, violation⟩, _⟩ := exists_violatedAt sound failed
    have member := List.mem_of_getElem? isStep
    exact violation.ne_invalidParameter sound (untouched step member) index tool source rfl

end Registry

/-- A tool with two parameters that select the output language. -/
def Tool.selecting : Tool Id where
  descriptor := ⟨"translate", "", "", [Language.hlsl], [Language.glsl, Language.metal],
    [.boolean "Debug" false, .outputLanguage [Language.glsl, Language.metal] Language.glsl,
      ⟨"Fallback", "", .outputLanguage [Language.glsl], Language.glsl⟩]⟩
  compile _ _ := pure (.ok (.terminal []))

/-- A tool whose parameter has no output language to select from. -/
def Tool.undecided : Tool Id where
  descriptor := ⟨"undecided", "", "", [Language.hlsl], [Language.glsl], [.outputLanguage [] ""]⟩
  compile _ _ := pure (.ok (.terminal []))

/-- The first of two selectors decides what is predicted; a tool that has nothing to select from is
refused; an argument of another name does not matter to a plan. -/
theorem predictions_sound_selecting :
    let tools := [Tool.selecting, .undecided, .between "inspect" [Language.glsl] []]
    let r := Registry.empty.offerAll tools
    let d := Tool.selecting.descriptor
    (∃ args, bind d.parameters (Table.empty.insert outputLanguageName Language.metal) = .ok args ∧
      d.predictedLanguages args = [Language.metal]) ∧
      d.isTerminal = false ∧ r.contains "undecided" = false ∧
      ∀ source, r.plan Language.hlsl
        [⟨"translate", Table.empty.insert "Unknown" "x"⟩, .ofTool "inspect"] ≠
          .error (.invalidParameter 0 "translate" source) := by
  intro tools r d
  obtain ⟨predictions, plans⟩ := Registry.predictions_sound tools
  have registered : r.get? "translate" = some .selecting := rfl
  have selector : d.FirstSelector
      (.outputLanguage [Language.glsl, Language.metal] Language.glsl)
      [Language.glsl, Language.metal] :=
    ⟨⟨[.boolean "Debug" false], _, rfl, by decide⟩, rfl⟩
  have bound : bind d.parameters (Table.empty.insert outputLanguageName Language.metal) =
      .ok ⟨[("Debug", .bool false), (outputLanguageName, .string Language.metal),
        ("Fallback", .string Language.glsl)]⟩ := by
    decide +kernel
  obtain ⟨_, _, selected⟩ := predictions "translate" .selecting registered _ _ bound
  obtain ⟨notTerminal, language, found, _, predicted⟩ := selected _ _ selector
  cases found
  refine ⟨⟨_, bound, predicted⟩, notTerminal, rfl, fun source => plans _ _ ?_ _ _ _⟩
  refine List.forall_mem_cons.2 ⟨?_, List.forall_mem_cons.2 ⟨?_, List.forall_mem_nil _⟩⟩
  · intro t isTool
    cases isTool
    decide
  · intro t isTool
    cases isTool
    exact List.forall_mem_nil _

end ShaderChain
