import ShaderChain.Process

/-!
# Hosts

What the library needs of the machine it runs on: variables of the environment,
the directory for configurations, files, a scratch directory for each invocation of
a tool, and programs. A host offers these as operations with effects in a monad `m`;
whatever uses them is written for any host.
-/

set_option autoImplicit false

namespace ShaderChain

/-- A machine with files and programs. Operations that look at files without saying why they fail
answer `false` where there is nothing to see. -/
structure Host (m : Type → Type) where
  /-- The value of a variable of the environment. -/
  environment? : String → m (Option String)
  /-- The directory where the platform keeps the configurations of the user, if it has one. -/
  configHome : m (Option Path)
  /-- Whether a path leads to a file. -/
  isFile : Path → m Bool
  /-- Whether a path leads to a directory. -/
  isDirectory : Path → m Bool
  /-- Whether a path leads to anything. -/
  hasEntry : Path → m Bool
  /-- The names in a directory, in any order. -/
  list : Path → m (Except IoError (List String))
  /-- The bytes of a file. -/
  read : Path → m (Except IoError Bytes)
  /-- Gives a file its bytes, whether it was there or not. -/
  write : Path → Bytes → m (Except IoError Unit)
  /-- Makes a directory, and those that lead to it. -/
  makeDirectories : Path → m (Except IoError Unit)
  /-- Makes an empty directory of its own for one invocation. -/
  openWorkspace : m (Except IoError Path)
  /-- Takes away such a directory and all that is in it. -/
  closeWorkspace : Path → m Unit
  /-- Runs a program to its end or its limit. -/
  launch : Invocation → m LaunchOutcome

namespace Host

variable {m : Type → Type} [Monad m]

/-- The text of a file. -/
def readText (host : Host m) (path : Path) : m (Except IoError String) := do
  match ← host.read path with
  | .error cause => return .error cause
  | .ok bytes =>
    match Text.decode? bytes with
    | some text => return .ok text
    | none => return .error .invalidText

/-- Gives a file its text. -/
def writeText (host : Host m) (path : Path) (text : String) : m (Except IoError Unit) :=
  host.write path (Text.encode text)

/-- The host with its effects in another monad. -/
def lift {n : Type → Type} (host : Host m) (raise : {α : Type} → m α → n α) : Host n where
  environment? name := raise (host.environment? name)
  configHome := raise host.configHome
  isFile path := raise (host.isFile path)
  isDirectory path := raise (host.isDirectory path)
  hasEntry path := raise (host.hasEntry path)
  list path := raise (host.list path)
  read path := raise (host.read path)
  write path content := raise (host.write path content)
  makeDirectories path := raise (host.makeDirectories path)
  openWorkspace := raise host.openWorkspace
  closeWorkspace path := raise (host.closeWorkspace path)
  launch invocation := raise (host.launch invocation)

/-- The directory for configurations that two variables of the environment give: the directory
named by the first one if its path is absolute, or else one in the home directory. -/
def configHomeOf (configured home : Option String) : Option Path :=
  match (configured.map Path.mk).filter (·.isAbsolute) with
  | some dir => some dir
  | none => (home.filter (! ·.isEmpty)).map fun home => Path.child ⟨home⟩ ".config"

/-- Runs a program and collects what it printed. -/
def run (host : Host m) (invocation : Invocation) : m (Except ToolError ProcessOutput) := do
  return (← host.launch invocation).toResult invocation

end Host

end ShaderChain
