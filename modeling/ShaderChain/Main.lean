import ShaderChain.CommandLine.Ending

/-!
# The program

The command line on the files and the environment of the machine it runs on.
This host starts no programs: it refuses every invocation of a tool, and a step
then reports that its program could not be launched.
-/

set_option autoImplicit false

namespace ShaderChain.Main

/-- Why an operation of the machine failed. -/
def causeOf (e : IO.Error) : IoError :=
  match e with
  | .noFileOrDirectory .. => .notFound
  | .alreadyExists .. => .exists_
  | .permissionDenied .. => .permissionDenied
  | .inappropriateType .. => .isDirectory
  | e => .other e.toString

/-- Runs an operation of the machine. -/
def attempt {α : Type} (operation : IO α) : IO (Except IoError α) := do
  match ← operation.toBaseIO with
  | .ok value => return .ok value
  | .error e => return .error (causeOf e)

/-- The kind of what a path leads to, if it leads to anything. -/
def kindOf (path : Path) : IO (Option IO.FS.FileType) := do
  match ← (IO.FS.realPath path.text >>= fun found => found.metadata).toBaseIO with
  | .ok found => return some found.type
  | .error _ => return none

/-- Makes a directory for one invocation. -/
def openWorkspace : IO (Except IoError Path) :=
  attempt do
    let made ← IO.FS.createTempDir
    return ⟨made.toString⟩

/-- The machine that the program runs on. -/
def host : Host IO where
  environment? name := IO.getEnv name
  configHome := return Host.configHomeOf (← IO.getEnv "XDG_CONFIG_HOME") (← IO.getEnv "HOME")
  isFile path := return (← kindOf path) == some .file
  isDirectory path := return (← kindOf path) == some .dir
  hasEntry path := return (← kindOf path).isSome
  list path := attempt do
    let found ← IO.FS.realPath path.text
    return (← found.readDir).toList.map (·.fileName)
  read path := attempt do return (← IO.FS.readBinFile path.text).toList
  write path content := attempt (IO.FS.writeBinFile path.text ⟨content.toArray⟩)
  makeDirectories path := attempt (IO.FS.createDirAll path.text)
  openWorkspace := openWorkspace
  closeWorkspace path := discard (attempt (IO.FS.removeDirAll path.text))
  launch _ := return .refused (.number 38)

end ShaderChain.Main

/-- Does what the command line asks for. -/
def main (words : List String) : IO UInt32 := do
  let ending ← ShaderChain.CommandLine.serveWords ShaderChain.Main.host words
  IO.print ending.output
  for complaint in ending.complaints do
    IO.eprintln complaint
  return ending.status
