import ShaderChain.Artifact
import ShaderChain.Host
import ShaderChain.Language

/-!
# Workspaces

A directory of its own for one invocation of a tool. It holds the input, in a
file whose extension tells its language, and whatever the tool writes beside it,
and is taken away when the invocation is over, however it ended
(`Host.inWorkspace`).
-/

set_option autoImplicit false

namespace ShaderChain

/-- A directory with the input of a tool in it. -/
structure Workspace where
  root : Path
  input : Path
deriving DecidableEq

/-- What a computation ends in, as a value: a failure does not end the computations after it. -/
def settled {m : Type → Type} [Monad m] {α : Type} (c : ExceptT ToolError m α) :
    ExceptT ToolError m (Except ToolError α) :=
  ExceptT.lift c.run

namespace Workspace

/-- The workspace in a directory for an input in a language. -/
def inDirectory (root : Path) (language : String) : Workspace :=
  ⟨root, root.child ("input." ++ Language.fileExtension language)⟩

/-- The path of a file in the workspace. -/
def path (w : Workspace) (name : String) : Path := w.root.child name

variable {m : Type → Type} [Monad m]

/-- The bytes of a file that the tool was to write. -/
def readBytes (w : Workspace) (host : Host m) (name : String) : ExceptT ToolError m Bytes := do
  match ← host.read (w.path name) with
  | .ok bytes => return bytes
  | .error cause =>
    if cause = .notFound then throw (.missingOutput (w.path name)) else throw (.io cause)

/-- The text of a file that the tool was to write. -/
def readText (w : Workspace) (host : Host m) (name : String) : ExceptT ToolError m String := do
  return Text.decodeLossy (← w.readBytes host name)

/-- The text of a file that the tool may have written. -/
def readTextIfThere (w : Workspace) (host : Host m) (name : String) :
    ExceptT ToolError m (Option String) := do
  match ← settled (w.readText host name) with
  | .ok text => return some text
  | .error (.missingOutput _) => return none
  | .error error => throw error

/-- Runs a program in the workspace. -/
def run (w : Workspace) (host : Host m) (program : Path) (arguments : List String)
    (limit : Duration) : ExceptT ToolError m ProcessOutput :=
  host.run ⟨program, arguments, w.root, limit⟩

/-- Runs a program in the workspace that has to succeed. -/
def runChecked (w : Workspace) (host : Host m) (program : Path) (arguments : List String)
    (limit : Duration) : ExceptT ToolError m ProcessOutput := do
  (← w.run host program arguments limit).check

end Workspace

/-- Writes an input to its workspace and goes on. -/
def Host.withInput {m : Type → Type} [Monad m] {α : Type} (host : Host m) (w : Workspace)
    (input : Artifact) (use : Workspace → ExceptT ToolError m α) : ExceptT ToolError m α := do
  match ← host.write w.input input.payload.bytes with
  | .ok _ => use w
  | .error cause => throw (.io cause)

/-- Uses a workspace for an input, and takes it away at the end. -/
def Host.inWorkspace {m : Type → Type} [Monad m] {α : Type} (host : Host m) (input : Artifact)
    (use : Workspace → ExceptT ToolError m α) : ExceptT ToolError m α := do
  match ← host.openWorkspace with
  | .error cause => throw (.io cause)
  | .ok root =>
    let result ← settled (host.withInput (.inDirectory root input.language) input use)
    host.closeWorkspace root
    result

end ShaderChain
