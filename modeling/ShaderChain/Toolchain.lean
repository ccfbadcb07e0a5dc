import ShaderChain.Config.Basic
import ShaderChain.Host
import ShaderChain.Parameter.Binding

/-!
# Toolchains

Where the programs of tools are. Every tool has the version `trunk`, whose
program is the one configured for the tool, else the tool's usual program in the
directory of programs, else that program wherever the search path has it. The
other versions of a tool are those configured for it, provided that there is a
directory of programs; version `v` of tool `t` is in `t/v` below that directory.
-/

set_option autoImplicit false

namespace ShaderChain

/-- The name of the parameter that selects a tool's version. -/
def versionName : String := "Version"

/-- The version that every tool has. -/
def trunk : String := "trunk"

/-- Where programs are, which versions there are, and how long a program may run. -/
structure Toolchain where
  binariesDir : Option Path
  executables : Table Path
  versions : Table (List String)
  limit : Duration

namespace Toolchain

/-- Programs by their names alone. -/
def ofLimit (limit : Duration) : Toolchain := ⟨none, .empty, .empty, limit⟩

/-- The toolchain that a configuration describes. -/
def ofSection (s : ToolsSection) : Toolchain :=
  ⟨s.binariesDir, s.executables, s.versions, .ofSeconds s.timeoutSeconds.toNat⟩

/-- The toolchain with a directory of programs. -/
def withBinariesDir (t : Toolchain) (dir : Path) : Toolchain := { t with binariesDir := some dir }

/-- The toolchain with a program of a tool. -/
def withExecutable (t : Toolchain) (tool : String) (program : Path) : Toolchain :=
  { t with executables := t.executables.insert tool program }

/-- The toolchain with versions of a tool. -/
def withVersions (t : Toolchain) (tool : String) (versions : List String) : Toolchain :=
  { t with versions := t.versions.insert tool versions }

/-- The items of `more` that `seen` does not hold, each once, after those of `seen`. -/
def appendNew (seen : List String) : List String → List String
  | [] => seen
  | item :: more => appendNew (if seen.contains item then seen else seen ++ [item]) more

/-- The versions of a tool that there is a directory for. -/
def listedVersions (t : Toolchain) (tool : String) : List String :=
  if t.binariesDir.isSome then (t.versions.get? tool).getD [] else []

/-- The versions that can be selected for a tool, `trunk` first. -/
def versionsOf (t : Toolchain) (tool : String) : List String :=
  appendNew [trunk] (t.listedVersions tool)

/-- The parameter that selects among versions. -/
def versionSelector (versions : List String) : Parameter :=
  (Parameter.choice versionName versions trunk).describedAs "Tool version to run"

/-- The parameter that selects a tool's version. -/
def versionParameter (t : Toolchain) (tool : String) : Parameter :=
  versionSelector (t.versionsOf tool)

/-- The program of a tool at `trunk`, `usual` being the name it usually has. -/
def executable (t : Toolchain) (tool usual : String) : Path :=
  match t.executables.get? tool, t.binariesDir with
  | some program, _ => program
  | none, some dir => dir.child usual
  | none, none => ⟨usual⟩

/-- The program of a tool at a version. -/
def versioned (t : Toolchain) (tool usual version : String) : Path :=
  match t.binariesDir.filter fun _ => version != trunk with
  | some dir => ((dir.child tool).child version).child usual
  | none => t.executable tool usual

/-- The program of a tool at the version that its arguments select. -/
def program (t : Toolchain) (tool usual : String) (args : BoundArguments) :
    Except ToolError Path :=
  match args.get? versionName with
  | none => .ok (t.executable tool usual)
  | some _ => (args.string versionName).map (t.versioned tool usual)

variable {m : Type → Type} [Monad m]

/-- The first of some directories that has a file under a name, with the name. -/
def firstFile? (host : Host m) (name : Path) : List Path → m (Option Path)
  | [] => return none
  | dir :: rest => do
    if ← host.isFile (dir.join name) then return some (dir.join name)
    else firstFile? host name rest

/-- The directories of the search path. -/
def searchPath (host : Host m) : m (List Path) := do
  match ← host.environment? "PATH" with
  | none => return []
  | some text => return (Text.splitEvery ':' text.toList).map fun part => ⟨String.ofList part⟩

/-- Where the program of a tool is, if it is anywhere. -/
def locate (t : Toolchain) (host : Host m) (tool usual : String) : m (Option Path) := do
  let program := t.executable tool usual
  if 1 < program.components.length || program.isAbsolute then
    return if ← host.isFile program then some program else none
  else
    firstFile? host program (← searchPath host)

end Toolchain

end ShaderChain
