import ShaderChain.Adapter.Dxc
import ShaderChain.Proofs.Adapter.Attempt
import ShaderChain.Proofs.Host.Environment
import ShaderChain.Proofs.Process
import ShaderChain.Proofs.Text.Lossy

/-!
# The syntax tree is for information only

`dxc` launches its program a second time to have the syntax tree printed. What
comes of it is shown (`ShowsTree`) and has no other effect.

Of one run this is told by the events that it leaves behind: a failure leaves one
launch at most, and a result leaves the second launch behind everything that it
was made from but the tree (`TreeLast`). Of two runs it is told in two environments
that may differ from the second launch on: they fail alike, or succeed with
results that are the same but for the text of the tree (`SameButTree`).
-/

set_option autoImplicit false

namespace ShaderChain.Adapter.Dxc

open Host (Event Request launches)
open Environment (End Lockstep Related)

/-! ## What is shown -/

/-- The text that is shown for the syntax tree, by what came of the launch that was to print it:
what the output of a process that exited with zero is read as, everything that another process
printed as it is told, or else why there was no process to print anything. -/
inductive ShowsTree (invocation : Invocation) : LaunchOutcome → String → Prop where
  | printed {output errors : Bytes} {text : String} (reads : Text.ReadsAs output text.toList) :
      ShowsTree invocation (.finished (some 0) output errors) text
  | failed {exitCode : Option Int} {output errors : Bytes} {printed complaints : List Char}
      {text : String} (unsuccessful : exitCode ≠ some 0) (outputIs : Text.ReadsAs output printed)
      (errorsAre : Text.ReadsAs errors complaints) (tells : Tells printed complaints text) :
      ShowsTree invocation (.finished exitCode output errors) text
  | refused {cause : IoError} :
      ShowsTree invocation (.refused cause)
        (ToolError.spawn invocation.program.text cause).message
  | unfinished :
      ShowsTree invocation .unfinished
        (ToolError.timeout invocation.program.text invocation.limit).message
  | lost {cause : IoError} : ShowsTree invocation (.lost cause) (ToolError.io cause).message

theorem showsTree (invocation : Invocation) (outcome : LaunchOutcome) :
    ShowsTree invocation outcome (treeText (outcome.toResult invocation)) := by
  cases outcome with
  | refused cause => exact .refused
  | unfinished => exact .unfinished
  | lost cause => exact .lost
  | finished exitCode output errors =>
    change ShowsTree _ _ (if exitCode == some 0 then _ else _)
    by_cases isZero : exitCode = some 0
    · rw [if_pos (beq_iff_eq.2 isZero), isZero]
      exact .printed (Text.readsAs_decodeLossy output)
    · rw [if_neg (mt beq_iff_eq.1 isZero)]
      have tells := ProcessOutput.tells_diagnostics
        ⟨exitCode, Text.decodeLossy output, Text.decodeLossy errors⟩
      exact .failed isZero (Text.readsAs_decodeLossy output) (Text.readsAs_decodeLossy errors) tells

/-- A result with an object, a listing and a tree. -/
def compiled (language : String) (object : Bytes) (listing tree : String) : StepResult :=
  .forward (.binary language object)
    [.text "Disassembly" (some language) listing, .text "AST" none tree]

/-- The tree can be asked for whenever the object can. -/
theorem exists_treeCommandLine {args : BoundArguments} {input object listing : Path}
    {line : List String} (isLine : commandLine args input object listing = .ok line) :
    ∃ treeLine, treeCommandLine args input = .ok treeLine := by
  cases shared : sharedOptions args with
  | error error =>
    rw [commandLine, shared] at isLine
    cases isLine
  | ok options =>
    rw [treeCommandLine, shared]
    exact ⟨_, rfl⟩

/-! ## One run -/

/-- The events of work that gave a result: the first launch succeeded, the object was read behind
it, and only then the tree was asked for. -/
inductive TreeLast (toolchain : Toolchain) (args : BoundArguments) (input : Artifact)
    (w : Workspace) : List Event → StepResult → Prop where
  | mk {language : String} {program : Path} {line treeLine : List String}
      {printed errors object : Bytes} {written : Except IoError Bytes} {outcome : LaunchOutcome}
      {listing tree : String}
      (selects : args.string outputLanguageName = .ok language)
      (isProgram : toolchain.program name executable args = .ok program)
      (isLine : commandLine args w.input (w.path objectFile) (w.path listingFile) = .ok line)
      (isTreeLine : treeCommandLine args w.input = .ok treeLine)
      (shown : ShowsTree ⟨program, treeLine, w.root, toolchain.limit⟩ outcome tree) :
      TreeLast toolchain args input w
        [⟨.write w.input input.payload.bytes, .ok ()⟩,
          ⟨.launch ⟨program, line, w.root, toolchain.limit⟩, .finished (some 0) printed errors⟩,
          ⟨.read (w.path objectFile), .ok object⟩, ⟨.read (w.path listingFile), written⟩,
          ⟨.launch ⟨program, treeLine, w.root, toolchain.limit⟩, outcome⟩]
        (compiled language object listing tree)

/-- What a run leaves behind: a failure, with one launch at most, or a result for which the tree
was asked last. -/
def Leaves (toolchain : Toolchain) (args : BoundArguments) (input : Artifact)
    (events : List Event) : Except ToolError StepResult → Prop :=
  Settled
    (fun result => ∃ root work,
      events = ⟨.openWorkspace, .ok root⟩ :: (work ++ [⟨.closeWorkspace root, ()⟩]) ∧
        TreeLast toolchain args input (.inDirectory root input.language) work result)
    (fun _ => launches events ≤ 1)

/-- A process at which nothing went wrong exited with zero. -/
theorem finished_of_fine {w : Workspace} {invocation : Invocation} {outcome : LaunchOutcome}
    (fine : (Stage.process invocation).fault? w outcome = none) :
    ∃ printed errors, outcome = .finished (some 0) printed errors := by
  cases outcome with
  | refused cause => cases fine
  | unfinished => cases fine
  | lost cause => cases fine
  | finished exitCode printed errors =>
    by_cases isZero : exitCode = some 0
    · exact ⟨printed, errors, by rw [isZero]⟩
    · cases (if_neg isZero).symm.trans fine

variable {m : Type → Type} [Monad m] [LawfulMonad m]

/-- **On every host the tree is asked for last,** and only if there is an object. -/
theorem noted_compile (toolchain : Toolchain) (host : Host m) (input : Artifact)
    (args : BoundArguments) :
    Noted (Leaves toolchain args input) (compile toolchain host.watched input args)
      (compile toolchain host input args) := by
  refine .knowing (fun _ _ => Nat.zero_le 1) fun language selects => ?_
  refine .knowing (fun _ _ => Nat.zero_le 1) fun program isProgram => ?_
  let p (w : Workspace) (work : List Event) : Except ToolError StepResult → Prop :=
    Settled (TreeLast toolchain args input w work) fun _ => launches work ≤ 1
  refine Noted.inWorkspace (p := p) host input (fun _ => Nat.zero_le 1) ?_ fun w => ?_
  · intro root work result worked
    cases result with
    | ok result => exact ⟨root, work, rfl, worked⟩
    | error error =>
      have once : launches work ≤ 1 := worked
      change launches (_ :: (work ++ [_])) ≤ 1
      simpa [Host.Request.launches] using once
  refine .withInput host w input (fun _ => Nat.zero_le 1) ?_
  refine .knowing (fun _ _ => Nat.zero_le 1) fun line isLine => ?_
  refine Stage.Judged.andThen (Stage.judged_runChecked w host program line toolchain.limit)
    (fun _ _ _ => Nat.le_refl 1) fun outcome _ fine _ => ?_
  obtain ⟨printed, errors, rfl⟩ := finished_of_fine fine
  refine Stage.Judged.andThen (Stage.judged_readBytes w host objectFile)
    (fun _ _ _ => Nat.le_refl 1) ?_
  rintro _ object _ rfl
  refine Stage.Judged.andThen (Stage.judged_readTextIfThere w host listingFile)
    (fun _ _ _ => Nat.le_refl 1) fun written listing _ _ => ?_
  obtain ⟨treeLine, isTreeLine⟩ := exists_treeCommandLine isLine
  refine .read isTreeLine ?_
  -- Whatever printing the tree comes to, the result is there.
  refine (Stage.noted_run w host program treeLine toolchain.limit).settling ?_
  rintro _ _ ⟨outcome, rfl, rfl⟩
  exact .pure (.mk selects isProgram isLine isTreeLine (showsTree _ outcome))

/-! ## Two runs -/

/-- Two ends of runs that are the same but for the tree: the same failure behind the same events,
with one launch at most, or results that show what came of the last launch. -/
inductive SameButTree (e f : Environment) : End StepResult → End StepResult → Prop where
  | failed {error : ToolError} {past : List Event} (once : launches past ≤ 1) :
      SameButTree e f (.error error, past) (.error error, past)
  | compiled {language listing tree tree' : String} {object : Bytes} {past : List Event}
      {invocation : Invocation} {root : Path}
      (shown : ShowsTree invocation (e past (.launch invocation)) tree)
      (shown' : ShowsTree invocation (f past (.launch invocation)) tree') :
      SameButTree e f
        (.ok (compiled language object listing tree), past ++
          [⟨.launch invocation, e past (.launch invocation)⟩, ⟨.closeWorkspace root, ()⟩])
        (.ok (compiled language object listing tree'), past ++
          [⟨.launch invocation, f past (.launch invocation)⟩, ⟨.closeWorkspace root, ()⟩])

/-- **Environments that agree until the second launch lead to the same but for the tree.** -/
theorem sameButTree_compile {e f : Environment} (agree : e.AgreeUntilSecondLaunch f)
    (toolchain : Toolchain) (input : Artifact) (args : BoundArguments) :
    Related 0 (SameButTree e f) (compile toolchain e.host input args)
      (compile toolchain f.host input args) := by
  have allows : Environment.AllowsFailures (SameButTree e f) := fun _ _ once => .failed once
  refine .knowing allows (Nat.zero_le 1) fun language _ => ?_
  refine .knowing allows (Nat.zero_le 1) fun program _ => ?_
  refine .inWorkspace agree allows input fun w => ?_
  have allowsClosed := allows.closed w.root
  refine .knowing allowsClosed (Nat.zero_le 1) fun line isLine => ?_
  refine .bind allowsClosed (Lockstep.runChecked agree w program line toolchain.limit)
    (Nat.le_refl 1) fun _ => ?_
  refine .bind allowsClosed (Lockstep.readBytes agree w objectFile) (Nat.le_refl 1)
    fun object => ?_
  refine .bind allowsClosed (Lockstep.readTextIfThere agree w listingFile) (Nat.le_refl 1)
    fun listing => ?_
  obtain ⟨treeLine, isTreeLine⟩ := exists_treeCommandLine isLine
  rw [isTreeLine]
  -- From here on the two may part.
  intro past _
  let invocation : Invocation := ⟨program, treeLine, w.root, toolchain.limit⟩
  have ends (e : Environment) :
      (past ++ [⟨.launch invocation, e past (.launch invocation)⟩]) ++
          [⟨.closeWorkspace w.root, ()⟩] =
        past ++ [⟨.launch invocation, e past (.launch invocation)⟩,
          ⟨.closeWorkspace w.root, ()⟩] :=
    List.append_assoc ..
  have shown := showsTree invocation (e past (.launch invocation))
  have shown' := showsTree invocation (f past (.launch invocation))
  have same := @SameButTree.compiled e f language (listing.getD "") _ _ object past invocation
    w.root shown shown'
  rw [← ends, ← ends] at same
  exact same

/-- **The syntax tree is for information only.** In two environments that agree until a program is
launched for the second time, and may do anything from then on, `dxc` fails in the one exactly if it
does in the other, with the same failure; and results are the same but for the text of the tree,
which is what came of the last launch in each. On every host a failure leaves one launch at most
behind, and a result leaves a first launch behind that succeeded, then the reading of the object,
and only then the launch for the tree. -/
theorem tree_informs_only (toolchain : Toolchain) (input : Artifact) (args : BoundArguments) :
    (∀ e f : Environment, e.AgreeUntilSecondLaunch f →
      let left := Environment.Run.from (compile toolchain e.host input args) []
      let right := Environment.Run.from (compile toolchain f.host input args) []
      (∀ error, left.1 = .error error ↔ right.1 = .error error) ∧
      ∀ a b, left.1 = .ok a → right.1 = .ok b →
        a.pipeable = b.pipeable ∧ a.selected = b.selected ∧
        a.hasErrors = false ∧ b.hasErrors = false ∧
        ∃ listing tree tree', a.outputs = [listing, .text "AST" none tree] ∧
          b.outputs = [listing, .text "AST" none tree'] ∧
          ∃ past invocation root,
            left.2 = past ++ [⟨.launch invocation, e past (.launch invocation)⟩,
              ⟨.closeWorkspace root, ()⟩] ∧
            right.2 = past ++ [⟨.launch invocation, f past (.launch invocation)⟩,
              ⟨.closeWorkspace root, ()⟩] ∧
            ShowsTree invocation (e past (.launch invocation)) tree ∧
            ShowsTree invocation (f past (.launch invocation)) tree') ∧
    ∀ {m : Type → Type} [Monad m] [LawfulMonad m] (host : Host m),
      let watched := (compile toolchain host.watched input args).run
      watched.run' [] = (compile toolchain host input args).run ∧
        Always (fun out => Leaves toolchain args input out.2 out.1) (watched.run []) := by
  constructor
  · intro e f agree left right
    have same : SameButTree e f left right :=
      sameButTree_compile agree toolchain input args [] (Nat.le_refl 0)
    generalize left = left at same ⊢
    generalize right = right at same ⊢
    cases same with
    | failed once =>
      refine ⟨fun _ => Iff.rfl, ?_⟩
      intro a b isOk
      cases isOk
    | compiled shown shown' =>
      refine ⟨fun _ => ⟨nofun, nofun⟩, ?_⟩
      rintro a b ⟨⟩ ⟨⟩
      exact ⟨rfl, rfl, rfl, rfl, _, _, _, rfl, rfl, _, _, _, rfl, rfl, shown, shown'⟩
  · intro m _ _ host watched
    have noted := noted_compile toolchain host input args
    exact ⟨noted.run'_eq [], noted.always⟩

/-- An environment in which programs succeed and files hold two bytes until the second launch, which
comes to `outcome` and leaves no file. -/
def dumping (outcome : LaunchOutcome) : Environment := fun past request =>
  match request with
  | .environment _ => (none : Option String)
  | .configHome => (none : Option Path)
  | .isFile _ => false
  | .isDirectory _ => false
  | .hasEntry _ => false
  | .list _ => (.ok [] : Except IoError (List String))
  | .read _ => (if launches past ≤ 1 then .ok [1, 2] else .error .notFound : Except IoError Bytes)
  | .write _ _ => (.ok () : Except IoError Unit)
  | .makeDirectories _ => (.ok () : Except IoError Unit)
  | .openWorkspace => (.ok ⟨"/tmp/w"⟩ : Except IoError Path)
  | .closeWorkspace _ => ()
  | .launch _ => if launches past = 0 then .finished (some 0) [] [] else outcome

theorem dumping_agree (outcome other : LaunchOutcome) :
    (dumping outcome).AgreeUntilSecondLaunch (dumping other) := by
  intro past request once
  cases request with
  | launch invocation =>
    have first : launches past = 0 := by
      change launches past + 1 ≤ 1 at once
      omega
    exact (if_pos first).trans (if_pos first).symm
  | _ => rfl

/-- The program for the tree is not there in one environment and prints in the other; the object is
the same. -/
theorem tree_informs_only_refused :
    let toolchain := Toolchain.ofLimit (.ofSeconds 30)
    let input := Artifact.text Language.hlsl "float4 main();"
    let args : BoundArguments := ⟨[(entryPointName, .string "main"),
      (targetProfileName, .string "ps_6_0"), (disableOptimizationsName, .bool false),
      (optimizationLevelName, .int 3), (enable16BitTypesName, .bool false),
      (spirvTargetName, .string "vulkan1.0"), (extraOptionsName, .string ""),
      (outputLanguageName, .string Language.dxil)]⟩
    let e := dumping (.refused .notFound)
    let f := dumping (.finished (some 0) (Text.encode "tree") [])
    bind descriptor.parameters .empty = .ok args ∧
      ∃ a b, (Environment.Run.from (compile toolchain e.host input args) []).1 = .ok a ∧
        (Environment.Run.from (compile toolchain f.host input args) []).1 = .ok b ∧
        a.pipeable = b.pipeable ∧ b = compiled Language.dxil [1, 2] "\x01\x02" "tree" ∧
        a.outputs[1]? = some (.text "AST" none
          "failed to launch 'dxc': No such file or directory (os error 2)") ∧
        (compile toolchain e.host.watched input args).run.run' [] =
          (compile toolchain e.host input args).run := by
  intro toolchain input args e f
  have left : (Environment.Run.from (compile toolchain e.host input args) []).1 =
      .ok (compiled Language.dxil [1, 2] "\x01\x02"
        "failed to launch 'dxc': No such file or directory (os error 2)") := by
    decide +kernel
  have right : (Environment.Run.from (compile toolchain f.host input args) []).1 =
      .ok (compiled Language.dxil [1, 2] "\x01\x02" "tree") := by
    decide +kernel
  obtain ⟨twoRuns, oneRun⟩ := tree_informs_only toolchain input args
  obtain ⟨_, results⟩ := twoRuns e f (dumping_agree _ _)
  obtain ⟨same, _⟩ := results _ _ left right
  exact ⟨by decide +kernel, _, _, left, right, same, rfl, rfl, (oneRun e.host).1⟩

end ShaderChain.Adapter.Dxc
