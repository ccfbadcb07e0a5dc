import ShaderChain.Adapter.Builtin
import ShaderChain.Proofs.Parameter.Binding
import ShaderChain.Proofs.Pipeline.Planning
import ShaderChain.Proofs.Workspace

/-!
# What the built-in tools promise

For arguments that fit its parameters a dependable tool fails only with what
lies outside of it, and what it forwards is in the language that was predicted
for these arguments: exactly one language if it forwards something, none if it
does not (`Tool.Dependable`). The payload is bytes exactly in the languages of
bytecode, and no output of an answer reports an error.

Each of the six adapters is dependable, on every host and with every toolchain.
Its command line reads only arguments that its parameters declare, with the
types that they have, and so does the choice of its program.
-/

set_option autoImplicit false

namespace ShaderChain

/-! ## Dependable tools -/

/-- Whether the payload is bytes. -/
def Payload.isBinary : Payload → Bool
  | .text _ => false
  | .binary _ => true

/-- The answer of a step for which some languages were predicted. -/
structure StepResult.AsPredicted (languages : List String) (result : StepResult) : Prop where
  /-- What is forwarded is in the one predicted language. -/
  language : languages = result.pipeable.toList.map Artifact.language
  /-- Bytecode is forwarded as bytes, source text as text. -/
  payload : ∀ next ∈ result.pipeable, next.payload.isBinary = Language.isBinary next.language
  clean : result.hasErrors = false

/-- What the answers to a call for some arguments have to be. -/
def Tool.Answers {m : Type → Type} (t : Tool m) (args : BoundArguments) :
    Except ToolError StepResult → Prop :=
  Settled (StepResult.AsPredicted (t.descriptor.predictedLanguages args)) ToolError.IsExternal

/-- A tool whose answers are as predicted whenever the arguments fit its parameters. -/
def Tool.Dependable {m : Type → Type} [Monad m] (t : Tool m) : Prop :=
  ∀ input args, args.Fits t.descriptor.parameters → Always (t.Answers args) (t.compile input args)

/-- What is known not to fail is read, and its value goes on. -/
theorem Settles.read {m : Type → Type} [Monad m] [LawfulMonad m] {α β : Type} {p : β → Prop}
    {q : ToolError → Prop} {x : Except ToolError α} {f : α → ExceptT ToolError m β}
    (gives : Gives x) (next : ∀ a, x = .ok a → Settles p q (f a)) :
    Settles p q (liftM x >>= f) := by
  obtain ⟨a, rfl⟩ := gives
  have known : Settles (fun b => b = a) q (liftM (Except.ok a) : ExceptT ToolError m α) :=
    .ofResult rfl
  refine known.bind fun b same => ?_
  rw [same]
  exact next a rfl

namespace StepResult.AsPredicted

variable {languages : List String}

/-- An answer that forwards one artifact, in the predicted language, is as predicted. -/
theorem forward {next : Artifact} {outputs : List StepOutput}
    (language : languages = [next.language])
    (payload : next.payload.isBinary = Language.isBinary next.language)
    (clean : outputs.any StepOutput.isError = false) :
    (StepResult.forward next outputs).AsPredicted languages := by
  refine ⟨language, ?_, clean⟩
  intro other forwarded
  cases forwarded
  exact payload

/-- An answer that forwards nothing is as predicted if nothing was. -/
theorem terminal {outputs : List StepOutput} (nothing : languages = [])
    (clean : outputs.any StepOutput.isError = false) :
    (StepResult.terminal outputs).AsPredicted languages := by
  refine ⟨nothing, ?_, clean⟩
  intro other forwarded
  cases forwarded

/-- Which output is shown first does not matter. -/
theorem select {result : StepResult} (predicted : result.AsPredicted languages)
    (position : UInt64) : (result.select position).AsPredicted languages := by
  unfold StepResult.select
  split
  · exact ⟨predicted.language, predicted.payload, predicted.clean⟩
  · exact predicted

end StepResult.AsPredicted

/-- The program of a tool can always be chosen from arguments that select a version. -/
theorem Toolchain.gives_program {args : BoundArguments} {schema : List Parameter} (t : Toolchain)
    (tool usual : String) (fits : args.Fits (schema ++ [t.versionParameter tool])) :
    Gives (t.program tool usual args) := by
  have declared : Declares (schema ++ [t.versionParameter tool]) versionName .text :=
    ⟨t.versionParameter tool, List.mem_append_right _ (List.mem_singleton_self _), rfl, rfl⟩
  obtain ⟨version, found, _⟩ := fits.get? declared
  rw [Toolchain.program, found]
  exact (fits.string declared).map _

namespace Adapter

variable {args : BoundArguments} {schema : List Parameter}

theorem gives_integerText {name : String} (fits : args.Fits schema)
    (declared : Declares schema name .integer) : Gives (integerText args name) :=
  (fits.integer declared).map _

theorem gives_splitExtraOptions (fits : args.Fits schema)
    (declared : Declares schema extraOptionsName .text) : Gives (splitExtraOptions args) :=
  (fits.string declared).map _

variable {m : Type → Type} [Monad m] [LawfulMonad m]

/-- A command that is put together, run and checked in a workspace of its own settles as what is
made of its output. -/
theorem settles_command {α : Type} {p : α → Prop} (host : Host m) (input : Artifact)
    {line : Workspace → Except ToolError (List String)} {program : Except ToolError Path}
    {limit : Duration} {use : Workspace → ProcessOutput → ExceptT ToolError m α}
    (givesLine : ∀ w, Gives (line w)) (givesProgram : Gives program)
    (uses : ∀ w output, Settles p ToolError.IsExternal (use w output)) :
    Settles p ToolError.IsExternal (host.inWorkspace input fun w => do
      let arguments ← line w
      let program ← program
      let output ← w.runChecked host program arguments limit
      use w output) := by
  refine host.settles_inWorkspace (fun _ => True.intro) input fun w => ?_
  refine .read (givesLine w) fun arguments _ => ?_
  refine .read givesProgram fun path _ => ?_
  exact (w.settles_runChecked host path arguments limit).bind fun output _ => uses w output

/-! ## The adapters -/

namespace Fxc

theorem gives_optimization (fits : args.Fits descriptor.parameters) :
    Gives (optimization args) := by
  refine (fits.boolean (by decide)).bind fun disabled _ => ?_
  exact .ite (.pure _) ((gives_integerText fits (by decide)).bind fun _ _ => .pure _)

theorem gives_commandLine (fits : args.Fits descriptor.parameters) (input object listing : Path) :
    Gives (commandLine args input object listing) := by
  refine (gives_optimization fits).bind fun _ _ => ?_
  refine (fits.string (by decide)).bind fun _ _ => ?_
  exact (fits.string (by decide)).bind fun _ _ => .pure _

theorem dependable (toolchain : Toolchain) (host : Host m) :
    (tool toolchain host).Dependable := by
  intro input args fits
  have predicted : (tool toolchain host).descriptor.predictedLanguages args = [Language.dxbc] :=
    ToolDescriptor.predicted_of_no_selector rfl
  apply settles_command host input (fun w => gives_commandLine fits.left _ _ _)
    (toolchain.gives_program name executable fits)
  intro w output
  refine (w.settles_readBytes host objectFile).bind fun object _ => ?_
  refine (w.settles_readTextIfThere host listingFile).bind fun listing _ => ?_
  exact .pure (.select (.forward predicted rfl rfl) 1)

end Fxc

namespace Dxc

theorem gives_sharedOptions (fits : args.Fits descriptor.parameters) :
    Gives (sharedOptions args) := by
  refine (fits.string (by decide)).bind fun _ _ => ?_
  refine (fits.string (by decide)).bind fun _ _ => ?_
  refine (fits.boolean (by decide)).bind fun _ _ => ?_
  exact (gives_splitExtraOptions fits (by decide)).bind fun _ _ => .pure _

theorem gives_optimization (fits : args.Fits descriptor.parameters) :
    Gives (optimization args) := by
  refine (fits.boolean (by decide)).bind fun disabled _ => ?_
  exact .ite (.pure _) ((gives_integerText fits (by decide)).bind fun _ _ => .pure _)

theorem gives_spirvOptions (fits : args.Fits descriptor.parameters) :
    Gives (spirvOptions args) := by
  refine (fits.string (by decide)).bind fun language _ => ?_
  exact .ite ((fits.string (by decide)).bind fun _ _ => .pure _) (.pure _)

theorem gives_commandLine (fits : args.Fits descriptor.parameters) (input object listing : Path) :
    Gives (commandLine args input object listing) := by
  refine (gives_sharedOptions fits).bind fun _ _ => ?_
  refine (gives_optimization fits).bind fun _ _ => ?_
  exact (gives_spirvOptions fits).bind fun _ _ => .pure _

theorem gives_treeCommandLine (fits : args.Fits descriptor.parameters) (input : Path) :
    Gives (treeCommandLine args input) :=
  (gives_sharedOptions fits).bind fun _ _ => .pure _

theorem dependable (toolchain : Toolchain) (host : Host m) :
    (tool toolchain host).Dependable := by
  intro input args fits
  refine Settles.read (fits.left.string (by decide)) fun language selected => ?_
  have predicted : (tool toolchain host).descriptor.predictedLanguages args = [language] :=
    ToolDescriptor.predicted_of_selector rfl selected
  have binary : ∀ l ∈ [Language.dxil, Language.spirv], Language.isBinary l = true := by decide
  have selector : Parameter.outputLanguage [Language.dxil, Language.spirv] Language.dxil ∈
      descriptor.parameters := by simp [descriptor]
  have listed : language ∈ [Language.dxil, Language.spirv] :=
    fits.left.mem_of_selected selector selected
  refine .read (toolchain.gives_program name executable fits) fun program _ => ?_
  refine host.settles_inWorkspace (fun _ => True.intro) input fun w => ?_
  refine .read (gives_commandLine fits.left _ _ _) fun arguments _ => ?_
  refine (w.settles_runChecked host program arguments toolchain.limit).bind fun _ _ => ?_
  refine (w.settles_readBytes host objectFile).bind fun object _ => ?_
  refine (w.settles_readTextIfThere host listingFile).bind fun listing _ => ?_
  refine .read (gives_treeCommandLine fits.left _) fun treeArguments _ => ?_
  refine (w.settles_run host program treeArguments toolchain.limit).settled.bind fun tree _ => ?_
  exact .pure (.forward predicted (binary language listed).symm rfl)

end Dxc

namespace Glslang

theorem gives_hlslOptions (fits : args.Fits descriptor.parameters) (language : String) :
    Gives (hlslOptions args language) :=
  .ite ((fits.string (by decide)).bind fun _ _ => .pure _) (.pure _)

theorem gives_commandLine (fits : args.Fits descriptor.parameters) (language : String)
    (input output : Path) : Gives (commandLine args language input output) := by
  refine (fits.string (by decide)).bind fun _ _ => ?_
  refine (fits.string (by decide)).bind fun _ _ => ?_
  exact (gives_hlslOptions fits language).bind fun _ _ => .pure _

theorem dependable (toolchain : Toolchain) (host : Host m) :
    (tool toolchain host).Dependable := by
  intro input args fits
  have predicted : (tool toolchain host).descriptor.predictedLanguages args = [Language.spirv] :=
    ToolDescriptor.predicted_of_no_selector rfl
  apply settles_command host input (fun w => gives_commandLine fits.left _ _ _)
    (toolchain.gives_program name executable fits)
  intro w output
  refine (w.settles_readBytes host moduleFile).bind fun module _ => ?_
  exact .pure (.forward predicted rfl rfl)

end Glslang

namespace SpirvCross

theorem gives_languageOptions (fits : args.Fits descriptor.parameters) (language : String) :
    Gives (languageOptions args language) := by
  refine .ite ?_ (.ite (.pure _) ?_)
  · exact (gives_integerText fits (by decide)).bind fun _ _ => .pure _
  · refine (gives_integerText fits (by decide)).bind fun _ _ => ?_
    exact (fits.boolean (by decide)).bind fun _ _ => .pure _

theorem gives_commandLine (fits : args.Fits descriptor.parameters) (input output : Path) :
    Gives (commandLine args input output) := by
  refine (fits.string (by decide)).bind fun language _ => ?_
  refine (gives_languageOptions fits language).bind fun _ _ => ?_
  exact (fits.string (by decide)).bind fun _ _ => .pure _

theorem dependable (toolchain : Toolchain) (host : Host m) :
    (tool toolchain host).Dependable := by
  intro input args fits
  refine Settles.read (fits.left.string (by decide)) fun language selected => ?_
  have predicted : (tool toolchain host).descriptor.predictedLanguages args = [language] :=
    ToolDescriptor.predicted_of_selector rfl selected
  have source : ∀ l ∈ languages, Language.isBinary l = false := by decide
  have selector : Parameter.outputLanguage languages Language.glsl ∈ descriptor.parameters := by
    simp [descriptor]
  have listed : language ∈ languages := fits.left.mem_of_selected selector selected
  apply settles_command host input (fun w => gives_commandLine fits.left _ _)
    (toolchain.gives_program name executable fits)
  intro w output
  refine (w.settles_readText host sourceFile).bind fun text _ => ?_
  exact .pure (.forward predicted (source language listed).symm rfl)

end SpirvCross

namespace Hlslcc

theorem gives_commandLine (fits : args.Fits descriptor.parameters) (input output : Path) :
    Gives (commandLine args input output) :=
  (fits.string (by decide)).bind fun _ _ => .pure _

theorem dependable (toolchain : Toolchain) (host : Host m) :
    (tool toolchain host).Dependable := by
  intro input args fits
  refine Settles.read (fits.left.string (by decide)) fun language selected => ?_
  have predicted : (tool toolchain host).descriptor.predictedLanguages args = [language] :=
    ToolDescriptor.predicted_of_selector rfl selected
  have source : ∀ l ∈ languages, Language.isBinary l = false := by decide
  have selector : Parameter.outputLanguage languages Language.glsl ∈ descriptor.parameters := by
    simp [descriptor]
  have listed : language ∈ languages := fits.left.mem_of_selected selector selected
  apply settles_command host input (fun w => gives_commandLine fits.left _ _)
    (toolchain.gives_program name executable fits)
  intro w output
  refine (w.settles_readText host sourceFile).bind fun text _ => ?_
  exact .pure (.forward predicted (source language listed).symm rfl)

end Hlslcc

namespace Mali

theorem gives_spirvOptions (fits : args.Fits descriptor.parameters) (language : String) :
    Gives (spirvOptions args language) :=
  .ite ((fits.string (by decide)).bind fun _ _ => .pure _) (.pure _)

theorem gives_commandLine (fits : args.Fits descriptor.parameters) (language : String)
    (input : Path) : Gives (commandLine args language input) := by
  refine (fits.string (by decide)).bind fun _ _ => ?_
  refine (fits.string (by decide)).bind fun _ _ => ?_
  exact (gives_spirvOptions fits language).bind fun _ _ => .pure _

theorem dependable (toolchain : Toolchain) (host : Host m) :
    (tool toolchain host).Dependable := by
  intro input args fits
  have predicted : (tool toolchain host).descriptor.predictedLanguages args = [] :=
    ToolDescriptor.predicted_of_no_selector rfl
  apply settles_command host input (fun w => gives_commandLine fits.left _ _)
    (toolchain.gives_program name executable fits)
  intro w output
  exact .pure (.terminal predicted rfl)

end Mali

/-- **Every built-in tool is dependable,** whatever the toolchain and the host. -/
theorem dependable_of_mem_builtin {toolchain : Toolchain} {host : Host m} {t : Tool m}
    (member : t ∈ builtin toolchain host) : t.Dependable := by
  simp only [builtin, List.mem_cons, List.not_mem_nil, or_false] at member
  rcases member with rfl | rfl | rfl | rfl | rfl | rfl
  · exact Fxc.dependable toolchain host
  · exact Dxc.dependable toolchain host
  · exact Glslang.dependable toolchain host
  · exact SpirvCross.dependable toolchain host
  · exact Hlslcc.dependable toolchain host
  · exact Mali.dependable toolchain host

end Adapter

end ShaderChain
