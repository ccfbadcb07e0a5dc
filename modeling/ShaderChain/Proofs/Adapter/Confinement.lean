import ShaderChain.Proofs.Adapter.Account
import ShaderChain.Proofs.Adapter.CommandLine
import ShaderChain.Machine.Standard
import ShaderChain.Proofs.Host.Confinement
import ShaderChain.Proofs.Machine.Workspace

/-!
# Adapters stay in their workspaces

Each of the six adapters opens one workspace, and everything that it asks for
until it is closed stays there: the files that it reads and writes, the directory
that its programs are run in, and the paths on their command lines
(`StaysIn`). A command line has the words of its tool, the paths of the input and of
what the program has to write, each at its place and in the workspace, the caller's
entry point, and for `dxc` the caller's further options (`LineWithin`). No other word
is there, so no other path; and as the flag of an output is no word of any line
(`CommandForm.not_hasWord_of_mem_outputFlags`), the tool puts it in front of a path
in the workspace only.

That the tree of files is in the end what it was (`builtin_leaves_no_trace`) then
rests on the law of the host alone, whatever the host answers: the rules for
computations that can be followed have a case for every way in which a part can
fail. A run of steps with these tools leaves no trace either, wherever it stops
(`keeps_run_registry`).
-/

set_option autoImplicit false

namespace ShaderChain

open Host (Event Request)

/-! ## Names in a workspace -/

namespace Workspace

/-- The input has the name of a file. -/
theorem isName_input (language : String) :
    Path.IsName ("input." ++ Language.fileExtension language) := by
  have letter : 'i' ∈ ("input." ++ Language.fileExtension language).toList := by
    rw [String.toList_append]
    exact List.mem_append_left _ (by decide)
  refine .of_mem letter (by decide) ?_
  rw [String.toList_append, List.mem_append, not_or]
  exact ⟨by decide, (Language.plain_fileExtension language).1⟩

end Workspace

namespace Adapter

/-! ## The flags of outputs -/

/-- Whether no value of a kind makes up a text, behind what stands in front of it. -/
def Misses (text front : String) : ParameterKind → Prop
  | .string => False
  | .bool => ∀ b, front ++ ArgumentValue.boolText b ≠ text
  | .int _ _ => text.toList.getLast?.any Char.isDigit = false
  | .choice allowed | .outputLanguage allowed => ∀ value ∈ allowed, front ++ value ≠ text

instance (text front : String) (kind : ParameterKind) : Decidable (Misses text front kind) :=
  match kind with
  | .string => inferInstanceAs (Decidable False)
  | .bool => inferInstanceAs (Decidable (∀ b, front ++ ArgumentValue.boolText b ≠ text))
  | .int _ _ => inferInstanceAs (Decidable (text.toList.getLast?.any Char.isDigit = false))
  | .choice allowed => inferInstanceAs (Decidable (∀ value ∈ allowed, front ++ value ≠ text))
  | .outputLanguage allowed =>
    inferInstanceAs (Decidable (∀ value ∈ allowed, front ++ value ≠ text))

theorem Misses.ne {text front : String} {kind : ParameterKind} {value : ArgumentValue}
    (misses : Misses text front kind) (admitted : kind.Admits value) :
    front ++ value.display ≠ text := by
  cases kind with
  | string => exact misses.elim
  | bool =>
    cases value with
    | bool b => exact misses b
    | string value => exact admitted.elim
    | int value => exact admitted.elim
  | int min max =>
    cases value with
    | int value =>
      rintro rfl
      obtain ⟨c, isLast, isDigit⟩ := Integer.text_last value.toInt
      rw [Misses, String.toList_append, List.getLast?_append] at misses
      simp [ArgumentValue.display, isLast, isDigit] at misses
    | string value => exact admitted.elim
    | bool value => exact admitted.elim
  | choice allowed =>
    cases value with
    | string value => exact misses value admitted
    | bool value => exact admitted.elim
    | int value => exact admitted.elim
  | outputLanguage allowed =>
    cases value with
    | string value => exact misses value admitted
    | bool value => exact admitted.elim
    | int value => exact admitted.elim

namespace CommandForm

variable {f : CommandForm}

/-- The flags in front of the outputs of a command line. -/
def outputFlags (f : CommandForm) : List String :=
  [f.object, f.listing].filterMap fun
    | .after flag => some flag
    | _ => none

/-- A text is no word of a command line that is none of its own and that no value makes up. -/
theorem not_hasWord {text : String} (notOwn : text ∉ f.words)
    (misses : ∀ entry ∈ f.values, ∀ p ∈ f.descriptor.parameters, p.name = entry.2 →
      Misses text entry.1 p.kind) (args : BoundArguments) : ¬ f.HasWord args text := by
  rintro (member | ⟨member, declared, _, _, admitted⟩)
  · exact notOwn member
  · exact (misses _ member _ declared rfl).ne admitted rfl

/-- **The flag of an output is no word** of a command line, so it stands in front of the output
only. -/
theorem not_hasWord_of_mem_outputFlags (member : f ∈ commandForms) {flag : String}
    (isFlag : flag ∈ f.outputFlags) (args : BoundArguments) : ¬ f.HasWord args flag := by
  have apart : ∀ f ∈ commandForms, ∀ flag ∈ f.outputFlags, flag ∉ f.words ∧
      ∀ entry ∈ f.values, ∀ p ∈ f.descriptor.parameters, p.name = entry.2 →
        Misses flag entry.1 p.kind := by
    decide
  obtain ⟨notOwn, misses⟩ := apart f member flag isFlag
  exact not_hasWord notOwn misses args

end CommandForm

/-! ## What stays in a workspace -/

/-- Whether all paths on a command line are those of files in a directory. -/
def LinePaths.Within (root : Path) (paths : LinePaths) : Prop :=
  ∀ path ∈ [paths.input, paths.object, paths.listing],
    ∃ name, Path.IsName name ∧ path = root.child name

/-- The paths of the input of a workspace and of two files in it. -/
def LinePaths.inWorkspace (w : Workspace) (object listing : String) : LinePaths :=
  ⟨w.input, w.path object, w.path listing⟩

theorem LinePaths.Within.inWorkspace (root : Path) (language : String) {object listing : String}
    (objectIsName : Path.IsName object) (listingIsName : Path.IsName listing) :
    (LinePaths.inWorkspace (.inDirectory root language) object listing).Within root := by
  intro path isPath
  simp only [LinePaths.inWorkspace, List.mem_cons, List.not_mem_nil, or_false] at isPath
  rcases isPath with rfl | rfl | rfl
  · exact ⟨_, Workspace.isName_input language, rfl⟩
  · exact ⟨object, objectIsName, rfl⟩
  · exact ⟨listing, listingIsName, rfl⟩

/-- Whether a command line is one of a tool's, with the words of that line, the caller's texts where
they belong, and the paths of files in a directory. The flag of an output is no such word, so it
stands once, in front of a path in the directory. -/
def LineWithin (descriptor : ToolDescriptor) (args : BoundArguments) (language : String)
    (root : Path) (arguments : List String) : Prop :=
  ∃ f ∈ commandForms, f.descriptor = descriptor ∧ (∀ flag ∈ f.outputFlags, ¬ f.HasWord args flag) ∧
    ∃ (paths : LinePaths) (form : List Place), paths.Within root ∧
      f.Mentions language (textOf args entryPointName) form ∧ f.Speaks args form ∧
      arguments = fillForm (fillingOf args paths) form

variable {c : Commission} {args : BoundArguments} {language : String}

theorem lineWithin_of_line {f : CommandForm} (member : f ∈ commandForms)
    (fits : args.Fits f.descriptor.parameters) {root : Path} {paths : LinePaths}
    (within : paths.Within root) {arguments : List String}
    (isLine : f.line args language paths = .ok arguments) :
    LineWithin f.descriptor args language root arguments := by
  obtain ⟨form, mentions, speaks, makes⟩ := hasForm_of_mem_commandForms member fits language
  have filled := makes args fits (fun _ _ => rfl) Iff.rfl paths
  have reserved : ∀ flag ∈ f.outputFlags, ¬ f.HasWord args flag := fun flag isFlag =>
    CommandForm.not_hasWord_of_mem_outputFlags member isFlag args
  exact ⟨f, member, rfl, reserved, paths, form, within, mentions, speaks,
    Except.ok.inj (isLine.symm.trans filled)⟩

/-- What a tool asks for in a workspace stays there. A program that it runs there has a command line
of the tool, with the paths of files there. -/
structure StaysIn (descriptor : ToolDescriptor) (args : BoundArguments) (language : String)
    (root : Path) (request : Request) : Prop where
  inside : request.Inside root
  line : ∀ invocation, request = .launch invocation →
    LineWithin descriptor args language root invocation.arguments

namespace StaysIn

variable {descriptor : ToolDescriptor} {root : Path}

theorem input (content : Bytes) : StaysIn descriptor args language root
    (.write (Workspace.inDirectory root language).input content) :=
  ⟨⟨_, Workspace.isName_input language, rfl⟩, nofun⟩

theorem file {name : String} (isName : Path.IsName name) :
    StaysIn descriptor args language root
      (.read ((Workspace.inDirectory root language).path name)) :=
  ⟨⟨name, isName, rfl⟩, nofun⟩

theorem process {program : Path} {arguments : List String} {limit : Duration}
    (line : LineWithin descriptor args language root arguments) :
    StaysIn descriptor args language root
      (.launch ⟨program, arguments, (Workspace.inDirectory root language).root, limit⟩) := by
  refine ⟨rfl, ?_⟩
  rintro _ ⟨⟩
  exact line

end StaysIn

namespace Commission

/-- Whether the command lines of a commission have a form, with the paths of two files in the
workspace. -/
structure Follows (c : Commission) (f : CommandForm) : Prop where
  member : f ∈ commandForms
  descriptor : f.descriptor = c.descriptor
  line : ∃ object listing, Path.IsName object ∧ Path.IsName listing ∧
    ∀ args language w, c.commandLine args language w =
      f.line args language (.inWorkspace w object listing)

theorem Follows.lineWithin {f : CommandForm} (follows : c.Follows f)
    (fits : args.Fits c.descriptor.parameters) {root : Path} {arguments : List String}
    (isLine : c.commandLine args language (.inDirectory root language) = .ok arguments) :
    LineWithin c.descriptor args language root arguments := by
  obtain ⟨member, same, object, listing, objectIsName, listingIsName, line⟩ := follows
  rw [line] at isLine
  rw [← same] at fits ⊢
  exact lineWithin_of_line member fits
    (.inWorkspace root language objectIsName listingIsName) isLine

variable {σ : Type} {host : Host (StateM σ)}

/-- A command that is put together, run and checked stays in its workspace, if what follows does. -/
theorem followed_command {f : CommandForm} {toolchain : Toolchain} {input : Artifact}
    {use : Workspace → ProcessOutput → ExceptT ToolError (StateT (List Event) (StateM σ)) StepResult}
    (follows : c.Follows f) (fits : args.Fits c.descriptor.parameters)
    (uses : ∀ root output, Followed host
      (Followed.All (StaysIn c.descriptor args input.language root))
      (use (.inDirectory root input.language) output)) :
    Followed host (Host.Enclosed (StaysIn c.descriptor args input.language))
      (host.watched.inWorkspace input fun w => do
        let arguments ← c.commandLine args input.language w
        let program ← c.program toolchain args
        let output ← w.runChecked host.watched program arguments toolchain.limit
        use w output) := by
  refine Followed.inWorkspace host input (fun root => .input _) fun root => ?_
  refine .knowing nofun fun arguments isLine => ?_
  refine .knowing nofun fun program _ => ?_
  have line := follows.lineWithin fits isLine
  exact (Followed.runChecked host _ (.process line)).bind (uses root)

/-- Whether the tool of a commission stays in its workspace, with a toolchain and on a host, for
all arguments that fit and say which program is run. -/
def Stays (c : Commission) (toolchain : Toolchain) (host : Host (StateM σ)) : Prop :=
  ∀ (input : Artifact) (args : BoundArguments) (program : Path),
    args.Fits c.descriptor.parameters → c.program toolchain args = .ok program →
      Followed host (Host.Enclosed (StaysIn c.descriptor args input.language))
        ((c.tool toolchain host.watched).compile input args)

end Commission

/-! ## The adapters -/

variable {σ : Type}

namespace Fxc

theorem follows : commission.Follows form :=
  ⟨by simp [commandForms], rfl, objectFile, listingFile, by decide, by decide, fun _ _ _ => rfl⟩

theorem stays (toolchain : Toolchain) (host : Host (StateM σ)) :
    commission.Stays toolchain host := by
  intro input args program fits _
  apply Commission.followed_command follows fits
  intro root output
  refine .bind (.readBytes host _ (.file (by decide))) fun object => ?_
  exact .bind (.readTextIfThere host _ (.file (by decide))) fun listing => .pure nofun

end Fxc

namespace Dxc

theorem follows : commission.Follows form :=
  ⟨by simp [commandForms], rfl, objectFile, listingFile, by decide, by decide, fun _ _ _ => rfl⟩

theorem stays (toolchain : Toolchain) (host : Host (StateM σ)) :
    commission.Stays toolchain host := by
  intro input args program fits isProgram
  have declared : Declares descriptor.parameters outputLanguageName .text := by decide
  obtain ⟨language, selected⟩ := fits.string declared
  refine .reading selected (.reading isProgram ?_)
  refine Followed.inWorkspace host input (fun root => .input _) fun root => ?_
  refine .knowing nofun fun arguments isLine => ?_
  have line := follows.lineWithin fits isLine
  refine .bind (.runChecked host _ (.process line)) fun _ => ?_
  refine .bind (.readBytes host _ (.file (by decide))) fun object => ?_
  refine .bind (.readTextIfThere host _ (.file (by decide))) fun listing => ?_
  refine .knowing nofun fun treeArguments isTreeLine => ?_
  -- The second program is run in the same workspace, with the line of another form.
  have treeLine : LineWithin descriptor args input.language root treeArguments :=
    lineWithin_of_line (f := treeForm) (by simp [commandForms]) fits
      (.inWorkspace root _ (by decide : Path.IsName objectFile)
        (by decide : Path.IsName listingFile)) isTreeLine
  have tree : Followed host (Followed.All (StaysIn descriptor args input.language root))
      ((Workspace.inDirectory root input.language).run host.watched program treeArguments
        toolchain.limit) := .run host _ (.process treeLine)
  exact tree.settling fun events stays _ => .pure (List.forall_mem_append.2 ⟨stays, nofun⟩)

end Dxc

namespace Glslang

theorem follows : commission.Follows form :=
  ⟨by simp [commandForms], rfl, moduleFile, moduleFile, by decide, by decide, fun _ _ _ => rfl⟩

theorem stays (toolchain : Toolchain) (host : Host (StateM σ)) :
    commission.Stays toolchain host := by
  intro input args program fits _
  apply Commission.followed_command follows fits
  intro root output
  exact .bind (.readBytes host _ (.file (by decide))) fun module => .pure nofun

end Glslang

namespace SpirvCross

theorem follows : commission.Follows form :=
  ⟨by simp [commandForms], rfl, sourceFile, sourceFile, by decide, by decide, fun _ _ _ => rfl⟩

theorem stays (toolchain : Toolchain) (host : Host (StateM σ)) :
    commission.Stays toolchain host := by
  intro input args program fits _
  have declared : Declares descriptor.parameters outputLanguageName .text := by decide
  obtain ⟨language, selected⟩ := fits.string declared
  refine .reading selected ?_
  apply Commission.followed_command follows fits
  intro root output
  exact .bind (.readText host _ (.file (by decide))) fun source => .pure nofun

end SpirvCross

namespace Hlslcc

theorem follows : commission.Follows form :=
  ⟨by simp [commandForms], rfl, sourceFile, sourceFile, by decide, by decide, fun _ _ _ => rfl⟩

theorem stays (toolchain : Toolchain) (host : Host (StateM σ)) :
    commission.Stays toolchain host := by
  intro input args program fits _
  have declared : Declares descriptor.parameters outputLanguageName .text := by decide
  obtain ⟨language, selected⟩ := fits.string declared
  refine .reading selected ?_
  apply Commission.followed_command follows fits
  intro root output
  exact .bind (.readText host _ (.file (by decide))) fun source => .pure nofun

end Hlslcc

namespace Mali

/-- There is no place for an output, so any names will do. -/
theorem follows : commission.Follows form :=
  ⟨by simp [commandForms], rfl, "output", "output", by decide, by decide, fun _ _ _ => rfl⟩

theorem stays (toolchain : Toolchain) (host : Host (StateM σ)) :
    commission.Stays toolchain host := by
  intro input args program fits _
  apply Commission.followed_command follows fits
  exact fun root output => .pure nofun

end Mali

/-- Every built-in tool stays in its workspace. -/
theorem stays_of_mem_commissions {c : Commission} (member : c ∈ commissions)
    (toolchain : Toolchain) (host : Host (StateM σ)) : c.Stays toolchain host := by
  simp only [commissions, List.mem_cons, List.not_mem_nil, or_false] at member
  rcases member with rfl | rfl | rfl | rfl | rfl | rfl
  · exact Fxc.stays toolchain host
  · exact Dxc.stays toolchain host
  · exact Glslang.stays toolchain host
  · exact SpirvCross.stays toolchain host
  · exact Hlslcc.stays toolchain host
  · exact Mali.stays toolchain host

/-- **A built-in tool runs in a workspace of its own** on arguments that fit, from every state and
to whatever end: as it does when it is watched. -/
theorem exists_enclosed {c : Commission} (member : c ∈ commissions) (toolchain : Toolchain)
    (host : Host (StateM σ)) (input : Artifact) {args : BoundArguments}
    (fits : args.Fits (c.tool toolchain host).descriptor.parameters) (s : σ) :
    ∃ events answer s', ((c.tool toolchain host).compile input args).run s = (answer, s') ∧
      (StateT.run ((c.tool toolchain host.watched).compile input args) []).run s =
        ((answer, events), s') ∧
      host.Leads s events s' ∧
      Host.Enclosed (StaysIn c.descriptor args input.language) events := by
  have kept := kept_of_mem_commissions member toolchain host
  rw [kept.descriptor] at fits
  obtain ⟨program, isProgram⟩ := toolchain.gives_program c.descriptor.name c.executable fits
  choose line isLine using fun w => kept.gives args input.language w fits.left
  have noted := kept.attempts input args program line fits.left isProgram isLine
  obtain ⟨events, answer, s', ran, leads, enclosed⟩ :=
    stays_of_mem_commissions member toolchain host input args program fits.left isProgram [] s
  refine ⟨events, answer, s', ?_, ran, leads, enclosed⟩
  have plain : StateT.run' ((c.tool toolchain host.watched).compile input args) [] =
      (c.tool toolchain host).compile input args := noted.run'_eq []
  rw [← plain, StateT.run'_eq, StateT.run_map]
  exact congrArg (fun out => (out.1.1, out.2)) ran

/-- A built-in tool keeps the tree of files on a host that confines workspaces. -/
theorem keeps_of_mem_builtin {toolchain : Toolchain} {host : Host (StateM σ)}
    {view : Host.View σ} (confines : host.Confines view) {t : Tool (StateM σ)}
    (member : t ∈ builtin toolchain host) (input : Artifact) {args : BoundArguments}
    (fits : args.Fits t.descriptor.parameters) : view.Keeps (t.compile input args) := by
  rw [builtin_eq] at member
  obtain ⟨c, isCommission, rfl⟩ := List.mem_map.1 member
  intro s
  obtain ⟨events, answer, s', ran, _, leads, enclosed⟩ :=
    exists_enclosed isCommission toolchain host input fits s
  rw [ran]
  exact (confines.leads_enclosed (fun _ _ stays => stays.inside) leads enclosed).1

/-- Planned steps keep the tree of files if their tools do. -/
theorem keeps_runSteps {view : Host.View σ} {planned : List (PlannedStep (StateM σ))}
    (keeps : ∀ s ∈ planned, ∀ input, view.Keeps (s.tool.compile input s.arguments))
    (current : Artifact) : view.Keeps (runSteps current planned) := by
  induction planned generalizing current with
  | nil => exact .pure _
  | cons s rest ih =>
    obtain ⟨here, later⟩ := List.forall_mem_cons.1 keeps
    rw [runSteps]
    split
    case isFalse => exact .pure _
    case isTrue =>
      have executed : view.Keeps (s.tool.execute current s.arguments) := by
        rw [Tool.execute_eq, map_eq_pure_bind]
        exact (here current).bind fun _ => .pure _
      refine executed.bind fun result => ?_
      cases result.pipeable with
      | none => exact .pure _
      | some next => exact (ih later next).bind fun _ => .pure _

/-- **A run over the built-in tools keeps the tree of files,** also one that stops half way. -/
theorem keeps_run_registry {host : Host (StateM σ)} {view : Host.View σ}
    (confines : host.Confines view) (tools : ToolsSection) (input : Artifact) (steps : List Step) :
    view.Keeps ((registry tools host).1.run input steps) := by
  rw [Registry.run]
  cases isPlan : (registry tools host).1.plan input.language steps with
  | error error => exact .pure _
  | ok p =>
    refine keeps_runSteps (fun s member current => ?_) input
    obtain ⟨i, isStep⟩ := List.getElem?_of_mem member
    obtain ⟨step, _, resolves⟩ := (Registry.plan_eq_ok_iff.1 isPlan).exists_step isStep
    have builtIn := mem_builtin_of_get?_registry resolves.registered
    exact keeps_of_mem_builtin confines builtIn current
      (resolves.fits (wellFormed_of_mem_builtin builtIn))

end Adapter

end ShaderChain
