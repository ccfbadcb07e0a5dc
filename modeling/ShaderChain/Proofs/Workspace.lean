import ShaderChain.Proofs.Outcome

/-!
# Failures of workspaces

Whatever a host does, opening a workspace, running programs in it and reading
files from it fail only with what lies outside a tool: a program or a file
(`ToolError.IsExternal`). None of these failures blames the arguments of the
tool. A computation in a workspace therefore settles as its parts do.
-/

set_option autoImplicit false

namespace ShaderChain

/-- A failure of a program or of a file, not of the arguments of a tool. -/
def ToolError.IsExternal : ToolError → Prop
  | .missingArgument _ => False
  | .argumentType _ _ => False
  | _ => True

variable {m : Type → Type} [Monad m] [LawfulMonad m] {α : Type} {p : α → Prop}

/-- What a launch came to is an output or an external failure. -/
theorem LaunchOutcome.settled_toResult (invocation : Invocation) (outcome : LaunchOutcome) :
    Settled (fun _ => True) ToolError.IsExternal (outcome.toResult invocation) := by
  cases outcome <;> exact True.intro

/-- A process that is checked succeeded, or its failure is reported. -/
theorem ProcessOutput.settled_check (output : ProcessOutput) :
    Settled (fun checked => checked.succeeded = true) ToolError.IsExternal output.check := by
  unfold check
  split
  · rename_i succeeded
    exact succeeded
  · exact True.intro

namespace Workspace

variable (w : Workspace) (host : Host m)

theorem settles_run (program : Path) (arguments : List String) (limit : Duration) :
    Settles (fun _ => True) ToolError.IsExternal (w.run host program arguments limit) := by
  change Always _ (host.launch ⟨program, arguments, w.root, limit⟩ >>= _)
  refine (Always.trivial _).bind fun outcome _ => ?_
  exact Always.pure (outcome.settled_toResult _)

theorem settles_runChecked (program : Path) (arguments : List String) (limit : Duration) :
    Settles (fun output => output.succeeded = true) ToolError.IsExternal
      (w.runChecked host program arguments limit) := by
  refine (w.settles_run host program arguments limit).bind fun output _ => ?_
  exact .ofResult output.settled_check

theorem settles_readBytes (name : String) :
    Settles (fun _ => True) ToolError.IsExternal (w.readBytes host name) := by
  refine (Settles.lift (Always.trivial (host.read (w.path name)))).bind fun content _ => ?_
  cases content with
  | ok bytes => exact .pure True.intro
  | error cause =>
    dsimp only
    split
    · exact .throw True.intro
    · exact .throw True.intro

theorem settles_readText (name : String) :
    Settles (fun _ => True) ToolError.IsExternal (w.readText host name) :=
  (w.settles_readBytes host name).bind fun _ _ => .pure True.intro

theorem settles_readTextIfThere (name : String) :
    Settles (fun _ => True) ToolError.IsExternal (w.readTextIfThere host name) := by
  refine (w.settles_readText host name).settled.bind fun content external => ?_
  cases content with
  | ok text => exact .pure True.intro
  | error error =>
    cases error with
    | missingOutput path => exact .pure True.intro
    | missingArgument name => exact external.elim
    | argumentType name expected => exact external.elim
    | spawn program cause => exact .throw True.intro
    | timeout program limit => exact .throw True.intro
    | io cause => exact .throw True.intro
    | failed exitCode diagnostics => exact .throw True.intro

end Workspace

variable {q : ToolError → Prop} (ofFile : ∀ cause, q (.io cause))

include ofFile

/-- A computation settles with its input written as it does in every workspace. -/
theorem Host.settles_withInput (host : Host m) (w : Workspace) (input : Artifact)
    {use : Workspace → ExceptT ToolError m α} (uses : Settles p q (use w)) :
    Settles p q (host.withInput w input use) := by
  refine (Settles.lift (Always.trivial (host.write w.input input.payload.bytes))).bind
    fun written _ => ?_
  cases written with
  | ok _ => exact uses
  | error cause => exact .throw (ofFile cause)

/-- **A computation settles in a workspace of its own as it does in every workspace**, if failures
of files have the property of its failures. -/
theorem Host.settles_inWorkspace (host : Host m) (input : Artifact)
    {use : Workspace → ExceptT ToolError m α} (uses : ∀ w, Settles p q (use w)) :
    Settles p q (host.inWorkspace input use) := by
  refine (Settles.lift (Always.trivial host.openWorkspace)).bind fun opened _ => ?_
  cases opened with
  | error cause => exact .throw (ofFile cause)
  | ok root =>
    refine (host.settles_withInput ofFile _ input (uses _)).settled.bind fun result holds => ?_
    refine (Settles.lift (Always.trivial (host.closeWorkspace root))).bind fun _ _ => ?_
    exact .ofResult holds

end ShaderChain
