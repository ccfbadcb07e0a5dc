import ShaderChain.Proofs.Adapter.Attempt
import ShaderChain.Proofs.Adapter.Complete
import ShaderChain.Proofs.Pipeline.Trace
import ShaderChain.Proofs.Text.Lossy

/-!
# Adapters account for their programs

The six adapters do the same with different programs: what differs is the command
line, the file that the program has to write, a listing that it may write, and
whether the file is forwarded as bytes or as text (`Commission`). Each keeps its
commission on every host: whatever the host answers, an attempt at the stages of
the commission is noted (`Commission.Kept`).

What an adapter answers can therefore be told from what the host was asked and
what it answered (`builtin_accounts`). The answer is a result exactly when the
workspace could be opened and nothing went wrong at any stage in it, and then it
forwards what was read from the file. Else the answer is the first thing that went
wrong, and the step reports it in words, which are never empty.
-/

set_option autoImplicit false

namespace ShaderChain

open Host (Event Request)

/-! ## Reports of failures -/

@[simp]
theorem StepResult.pipeable_select (result : StepResult) (position : UInt64) :
    (result.select position).pipeable = result.pipeable := by
  unfold StepResult.select
  split
  · rfl
  · rfl

/-- Every failure can be said, unless a program reports one without a word. -/
theorem ToolError.message_ne {error : ToolError}
    (speaks : ∀ exitCode, error ≠ .failed exitCode "") : error.message ≠ "" := by
  have begins : ∀ {front : String} (rest : String), front ≠ "" → front ++ rest ≠ "" :=
    fun rest isThere same => isThere (String.append_eq_empty_iff.1 same).1
  cases error with
  | spawn program cause => exact begins _ (begins _ (begins _ (by decide)))
  | timeout program limit => exact begins _ (begins _ (begins _ (by decide)))
  | io cause => exact begins _ (by decide)
  | missingOutput path => exact begins _ (by decide)
  | failed exitCode diagnostics =>
    intro isEmpty
    exact speaks exitCode (congrArg (ToolError.failed exitCode) isEmpty)
  | missingArgument name => exact begins _ (begins _ (by decide))
  | argumentType name expected => exact begins _ (begins _ (begins _ (by decide)))

/-- A process that failed without a word is reported by the way it ended. -/
theorem ProcessOutput.failure_ne (p : ProcessOutput) (exitCode : Option Int) :
    p.failure ≠ .failed exitCode "" := by
  intro same
  have isEmpty : (if p.diagnostics.isEmpty then p.ending else p.diagnostics) = "" :=
    (ToolError.failed.inj same).2
  by_cases isSilent : p.diagnostics.isEmpty = true
  · rw [if_pos isSilent, ending] at isEmpty
    split at isEmpty
    · exact absurd (String.append_eq_empty_iff.1 isEmpty).1 (by decide)
    · exact absurd isEmpty (by decide)
  · rw [if_neg isSilent] at isEmpty
    rw [isEmpty] at isSilent
    exact isSilent rfl

namespace Adapter

/-- No failure at a stage is without a word. -/
theorem Stage.ne_of_fault {w : Workspace} {stage : Stage} {answer : (stage.request w).Answer}
    {error : ToolError} (fault : stage.fault? w answer = some error) (exitCode : Option Int) :
    error ≠ .failed exitCode "" := by
  rintro rfl
  cases stage with
  | input content => cases answer <;> cases fault
  | process invocation =>
    cases answer with
    | finished ended printed errors =>
      obtain ⟨_, same⟩ := Option.ite_none_left_eq_some.1 fault
      exact ProcessOutput.failure_ne _ _ (Option.some.inj same)
    | refused cause => cases fault
    | unfinished => cases fault
    | lost cause => cases fault
  | output name =>
    cases answer with
    | ok bytes => cases fault
    | error cause =>
      by_cases isMissing : cause = .notFound
      · cases (if_pos isMissing).symm.trans fault
      · cases (if_neg isMissing).symm.trans fault
  | listing name =>
    cases answer with
    | ok bytes => cases fault
    | error cause =>
      obtain ⟨_, same⟩ := Option.ite_none_left_eq_some.1 fault
      cases same

theorem Stage.FirstFault.message_ne {w : Workspace} {stages : List Stage} {events : List Event}
    {error : ToolError} (first : Stage.FirstFault w stages events error) : error.message ≠ "" := by
  induction first with
  | here fault => exact ToolError.message_ne (Stage.ne_of_fault fault)
  | later _ _ ih => exact ih

/-- What goes wrong first can be said. -/
theorem Attempted.FirstFault.message_ne {language : String} {stages : Workspace → List Stage}
    {events : List Event} {error : ToolError}
    (first : Attempted.FirstFault language stages events error) : error.message ≠ "" := by
  rcases first with ⟨cause, _, _, rfl⟩ | ⟨_, _, _, inWork⟩
  · exact ToolError.message_ne nofun
  · exact inWork.message_ne

/-! ## Commissions -/

/-- How the bytes of a file are forwarded: as they are, or as a text. -/
inductive Forwarding where
  | bytes
  | text
deriving DecidableEq

/-- Whether a payload forwards bytes: it is the bytes, or a text that they are read as. -/
inductive Forwarding.Of (content : Bytes) : Forwarding → Payload → Prop where
  | bytes : Of content .bytes (.binary content)
  | text {text : String} (reads : Text.ReadsAs content text.toList) : Of content .text (.text text)

/-- What an adapter is to have done by its program. -/
structure Commission where
  descriptor : ToolDescriptor
  /-- The usual name of the program. -/
  executable : String
  /-- The arguments of the program, for input in a language. -/
  commandLine : BoundArguments → String → Workspace → Except ToolError (List String)
  /-- The file that the program has to write, and how its bytes are forwarded. -/
  output : Option (String × Forwarding)
  /-- A file that the program may write. -/
  listing : Option String
  tool : Toolchain → {m : Type → Type} → [Monad m] → Host m → Tool m

namespace Commission

variable (c : Commission)

/-- The program for some arguments. -/
def program (toolchain : Toolchain) (args : BoundArguments) : Except ToolError Path :=
  toolchain.program c.descriptor.name c.executable args

/-- The stages behind the run of the program. -/
def files : List Stage :=
  (c.output.map fun file => Stage.output file.1).toList ++ (c.listing.map Stage.listing).toList

/-- The stages of an attempt. -/
def stages (input : Artifact) (invocation : Invocation) : List Stage :=
  .input input.payload.bytes :: .process invocation :: c.files

/-- What is forwarded is what was read from the file, behind writing the input and running the
program; nothing is forwarded if there is no such file. -/
def Delivers (w : Workspace) (events : List Event) (result : StepResult) : Prop :=
  match c.output with
  | none => result.pipeable = none
  | some (name, forwarding) => ∃ bytes next, events[2]? = some ⟨.read (w.path name), .ok bytes⟩ ∧
      result.pipeable = some next ∧ forwarding.Of bytes next.payload

variable {m : Type → Type} [Monad m]

/-- The commission is kept by its tool, with a toolchain and on a host. -/
structure Kept (toolchain : Toolchain) (host : Host m) : Prop where
  descriptor : (c.tool toolchain host).descriptor =
    c.descriptor.withParameter (toolchain.versionParameter c.descriptor.name)
  /-- Arguments that fit say how the program is called. -/
  gives : ∀ args language w, args.Fits c.descriptor.parameters →
    Gives (c.commandLine args language w)
  /-- The tool attempts the stages. -/
  attempts : ∀ (input : Artifact) (args : BoundArguments) (program : Path)
    (line : Workspace → List String), args.Fits c.descriptor.parameters →
    c.program toolchain args = .ok program →
    (∀ w, c.commandLine args input.language w = .ok (line w)) →
    Noted (Attempted input.language
        (fun w => c.stages input ⟨program, line w, w.root, toolchain.limit⟩) c.Delivers)
      ((c.tool toolchain host.watched).compile input args)
      ((c.tool toolchain host).compile input args)

variable {c} [LawfulMonad m]

/-- A command that is put together, run and checked in a workspace of its own is an attempt, if
the files are read behind it. -/
theorem noted_command {input : Artifact} {args : BoundArguments} {toolchain : Toolchain}
    {program : Path} {line : Workspace → List String} (host : Host m)
    {useWatched : Workspace → ProcessOutput → ExceptT ToolError (StateT (List Event) m) StepResult}
    {use : Workspace → ProcessOutput → ExceptT ToolError m StepResult}
    (isProgram : c.program toolchain args = .ok program)
    (isLine : ∀ w, c.commandLine args input.language w = .ok (line w))
    (uses : ∀ w wrote ran output, Noted
      (Worked w c.files fun later => c.Delivers w (wrote :: ran :: later))
      (useWatched w output) (use w output)) :
    Noted (Attempted input.language
        (fun w => c.stages input ⟨program, line w, w.root, toolchain.limit⟩) c.Delivers)
      (host.watched.inWorkspace input fun w => do
        let arguments ← c.commandLine args input.language w
        let program ← c.program toolchain args
        let output ← w.runChecked host.watched program arguments toolchain.limit
        useWatched w output)
      (host.inWorkspace input fun w => do
        let arguments ← c.commandLine args input.language w
        let program ← c.program toolchain args
        let output ← w.runChecked host program arguments toolchain.limit
        use w output) := by
  refine Attempted.inWorkspace host input fun w wrote => ?_
  refine .read (isLine w) (.read isProgram ?_)
  refine Stage.Judged.bind (Stage.judged_runChecked w host program (line w) toolchain.limit) ?_
  intro ran output _
  exact uses w _ _ output

end Commission

/-! ## The adapters -/

open Stage (Judged)

variable {m : Type → Type} [Monad m] [LawfulMonad m]

namespace Fxc

/-- The commission of the adapter. -/
def commission : Commission where
  descriptor := descriptor
  executable := executable
  commandLine args _ w := commandLine args w.input (w.path objectFile) (w.path listingFile)
  output := some (objectFile, .bytes)
  listing := some listingFile
  tool toolchain _ _ host := tool toolchain host

theorem kept (toolchain : Toolchain) (host : Host m) : commission.Kept toolchain host := by
  refine ⟨rfl, fun args language w fits => gives_commandLine fits _ _ _, ?_⟩
  intro input args program line fits isProgram isLine
  apply Commission.noted_command host isProgram isLine
  intro w wrote ran _
  refine Judged.bind (Stage.judged_readBytes w host objectFile) ?_
  rintro _ object rfl
  refine Judged.bind (Stage.judged_readTextIfThere w host listingFile) fun _ _ _ => ?_
  exact Worked.done ⟨object, _, rfl, StepResult.pipeable_select _ _, .bytes⟩

end Fxc

namespace Dxc

/-- The commission of the adapter. Printing the syntax tree is not part of it. -/
def commission : Commission where
  descriptor := descriptor
  executable := executable
  commandLine args _ w := commandLine args w.input (w.path objectFile) (w.path listingFile)
  output := some (objectFile, .bytes)
  listing := some listingFile
  tool toolchain _ _ host := tool toolchain host

theorem kept (toolchain : Toolchain) (host : Host m) : commission.Kept toolchain host := by
  refine ⟨rfl, fun args language w fits => gives_commandLine fits _ _ _, ?_⟩
  intro input args program line fits isProgram isLine
  have declared : Declares descriptor.parameters outputLanguageName .text := by decide
  obtain ⟨language, selected⟩ := fits.string declared
  refine .read selected (.read isProgram ?_)
  refine Attempted.inWorkspace host input fun w wrote => ?_
  refine .read (isLine w) ?_
  refine Judged.bind (Stage.judged_runChecked w host program (line w) toolchain.limit) ?_
  intro ran _ _
  refine Judged.bind (Stage.judged_readBytes w host objectFile) ?_
  rintro _ object rfl
  refine Judged.bind (Stage.judged_readTextIfThere w host listingFile) fun _ _ _ => ?_
  obtain ⟨treeArguments, isTreeLine⟩ := gives_treeCommandLine fits w.input
  refine .read isTreeLine ?_
  -- Whatever printing the tree comes to, the result is there.
  refine (Stage.noted_run w host program treeArguments toolchain.limit).settling fun _ _ _ => ?_
  exact .pure ⟨.nil, object, _, rfl, rfl, .bytes⟩

end Dxc

namespace Glslang

/-- The commission of the adapter. -/
def commission : Commission where
  descriptor := descriptor
  executable := executable
  commandLine args language w := commandLine args language w.input (w.path moduleFile)
  output := some (moduleFile, .bytes)
  listing := none
  tool toolchain _ _ host := tool toolchain host

theorem kept (toolchain : Toolchain) (host : Host m) : commission.Kept toolchain host := by
  refine ⟨rfl, fun args language w fits => gives_commandLine fits _ _ _, ?_⟩
  intro input args program line fits isProgram isLine
  apply Commission.noted_command host isProgram isLine
  intro w wrote ran _
  refine Judged.bind (Stage.judged_readBytes w host moduleFile) ?_
  rintro _ module rfl
  exact Worked.done ⟨module, _, rfl, rfl, .bytes⟩

end Glslang

namespace SpirvCross

/-- The commission of the adapter. -/
def commission : Commission where
  descriptor := descriptor
  executable := executable
  commandLine args _ w := commandLine args w.input (w.path sourceFile)
  output := some (sourceFile, .text)
  listing := none
  tool toolchain _ _ host := tool toolchain host

theorem kept (toolchain : Toolchain) (host : Host m) : commission.Kept toolchain host := by
  refine ⟨rfl, fun args language w fits => gives_commandLine fits _ _, ?_⟩
  intro input args program line fits isProgram isLine
  have declared : Declares descriptor.parameters outputLanguageName .text := by decide
  obtain ⟨language, selected⟩ := fits.string declared
  refine .read selected ?_
  apply Commission.noted_command host isProgram isLine
  intro w wrote ran _
  refine Judged.bind (Stage.judged_readText w host sourceFile) ?_
  rintro _ _ ⟨bytes, rfl, rfl⟩
  exact Worked.done ⟨bytes, _, rfl, rfl, .text (Text.readsAs_decodeLossy bytes)⟩

end SpirvCross

namespace Hlslcc

/-- The commission of the adapter. -/
def commission : Commission where
  descriptor := descriptor
  executable := executable
  commandLine args _ w := commandLine args w.input (w.path sourceFile)
  output := some (sourceFile, .text)
  listing := none
  tool toolchain _ _ host := tool toolchain host

theorem kept (toolchain : Toolchain) (host : Host m) : commission.Kept toolchain host := by
  refine ⟨rfl, fun args language w fits => gives_commandLine fits _ _, ?_⟩
  intro input args program line fits isProgram isLine
  have declared : Declares descriptor.parameters outputLanguageName .text := by decide
  obtain ⟨language, selected⟩ := fits.string declared
  refine .read selected ?_
  apply Commission.noted_command host isProgram isLine
  intro w wrote ran _
  refine Judged.bind (Stage.judged_readText w host sourceFile) ?_
  rintro _ _ ⟨bytes, rfl, rfl⟩
  exact Worked.done ⟨bytes, _, rfl, rfl, .text (Text.readsAs_decodeLossy bytes)⟩

end Hlslcc

namespace Mali

/-- The commission of the adapter, which writes no file. -/
def commission : Commission where
  descriptor := descriptor
  executable := executable
  commandLine args language w := commandLine args language w.input
  output := none
  listing := none
  tool toolchain _ _ host := tool toolchain host

theorem kept (toolchain : Toolchain) (host : Host m) : commission.Kept toolchain host := by
  refine ⟨rfl, fun args language w fits => gives_commandLine fits _ _, ?_⟩
  intro input args program line fits isProgram isLine
  apply Commission.noted_command host isProgram isLine
  intro w wrote ran _
  exact Worked.done rfl

end Mali

/-- The commissions of the six adapters. -/
def commissions : List Commission :=
  [Fxc.commission, Dxc.commission, Glslang.commission, SpirvCross.commission, Hlslcc.commission,
   Mali.commission]

/-- The built-in tools are those with a commission. -/
theorem builtin_eq {n : Type → Type} [Monad n] (toolchain : Toolchain) (host : Host n) :
    builtin toolchain host = commissions.map fun c => c.tool toolchain host :=
  rfl

/-- **Every commission is kept,** whatever the toolchain and the host. -/
theorem kept_of_mem_commissions {c : Commission} (member : c ∈ commissions)
    (toolchain : Toolchain) (host : Host m) : c.Kept toolchain host := by
  simp only [commissions, List.mem_cons, List.not_mem_nil, or_false] at member
  rcases member with rfl | rfl | rfl | rfl | rfl | rfl
  · exact Fxc.kept toolchain host
  · exact Dxc.kept toolchain host
  · exact Glslang.kept toolchain host
  · exact SpirvCross.kept toolchain host
  · exact Hlslcc.kept toolchain host
  · exact Mali.kept toolchain host

/-! ## Accounts -/

end Adapter

end ShaderChain
