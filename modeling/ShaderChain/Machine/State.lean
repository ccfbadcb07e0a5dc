import ShaderChain.Host
import ShaderChain.Machine.Files
import ShaderChain.Table
import ShaderChain.Text.Quoted

/-!
# Machines

A machine as a value: its files, the working directory, the variables of the
environment and how many workspaces were opened. Given a way to run programs it
is a host (`Machine.host`), whose operations are functions of this value and of
nothing else.

Nothing stands at the place of a new workspace or below it
(`isFree_of_freeNumber?`), so taking the workspace away takes away nothing else.
-/

set_option autoImplicit false

namespace ShaderChain

/-- Whether nothing stands at a location or below it. -/
def Files.isFree (fs : Files) (l : Location) : Bool := fs.entries.all fun e => ! l.holds e.1

/-- A machine. -/
structure Machine where
  files : Files
  directory : Location
  environment : Table String
  /-- How many workspaces were opened. -/
  workspaces : Nat

namespace Machine

/-- The directory where workspaces are made. -/
def scratchDirectory (machine : Machine) : Path :=
  let path : Path := ⟨(machine.environment.get? "TMPDIR").getD "/tmp"⟩
  if path.isAbsolute then path else machine.directory.path.join path

/-- The name of the workspace with a number, which has six digits or more. -/
def workspaceName (n : Nat) : String :=
  let digits := Nat.toDigits 10 n
  "shaderpipe-" ++ String.ofList (List.replicate (6 - digits.length) '0' ++ digits)

/-- The first number, of so many from `n` on, whose workspace has a free place in a directory. -/
def freeNumber? (files : Files) (directory : Location) : Nat → Nat → Option Nat
  | 0, _ => none
  | more + 1, n =>
    if files.isFree (directory.child (workspaceName n)) then some n
    else freeNumber? files directory more (n + 1)

/-- The place of a new workspace is free. -/
theorem isFree_of_freeNumber? {files : Files} {directory : Location} {more n found : Nat}
    (is : freeNumber? files directory more n = some found) :
    files.isFree (directory.child (workspaceName found)) = true := by
  induction more generalizing n with
  | zero => simp [freeNumber?] at is
  | succ more ih =>
    rw [freeNumber?] at is
    split at is
    · rename_i free
      exact Option.some.inj is ▸ free
    · exact ih is

/-- An error that tells the path it is about. -/
def errorAt (path : Path) (cause : IoError) : IoError :=
  .other (cause.message ++ " at path " ++ Text.quoted path.text)

/-- The number of the workspace that is opened next, whose place is free if the directory of
workspaces is there. -/
def nextNumber (machine : Machine) : Nat :=
  match machine.files.locate machine.directory (machine.scratchDirectory.child ".") with
  | .ok l =>
    (freeNumber? machine.files l (machine.files.entries.length + 1) machine.workspaces).getD 0
  | .error _ => machine.workspaces

/-- The path of the workspace that is opened next. -/
def nextWorkspace (machine : Machine) : Path :=
  machine.scratchDirectory.child (workspaceName machine.nextNumber)

/-- Opens a workspace. -/
def openWorkspace (machine : Machine) : Except IoError Path × Machine :=
  match machine.files.makeDirectory machine.directory machine.nextWorkspace with
  | .ok files => (.ok machine.nextWorkspace,
      { machine with files := files, workspaces := machine.workspaces + 1 })
  | .error cause => (.error (errorAt machine.nextWorkspace cause), machine)

/-- Takes away what a path leads to, and all below it. -/
def removeTree (machine : Machine) (path : Path) : Machine :=
  match machine.files.locate machine.directory path with
  | .ok l => { machine with files := machine.files.removeTree l }
  | .error _ => machine

/-- Takes the new files of an operation, or gives why it failed. -/
def change (operation : Files → Location → Except IoError Files) :
    StateM Machine (Except IoError Unit) := do
  let machine ← get
  match operation machine.files machine.directory with
  | .ok files =>
    set { machine with files := files }
    return .ok ()
  | .error cause => return .error cause

/-- The directory for configurations. A machine has no list of its users, where the home directory
could be looked up if the environment does not give it. -/
def configHome (machine : Machine) : Option Path :=
  Host.configHomeOf (machine.environment.get? "XDG_CONFIG_HOME") (machine.environment.get? "HOME")

/-- The machine as a host. -/
def host (launch : Invocation → StateM Machine LaunchOutcome) : Host (StateM Machine) where
  environment? name := do return (← get).environment.get? name
  configHome := do return (← get).configHome
  isFile path := do return (← get).files.isFile (← get).directory path
  isDirectory path := do return (← get).files.isDirectory (← get).directory path
  hasEntry path := do return (← get).files.hasEntry (← get).directory path
  list path := do return (← get).files.list (← get).directory path
  read path := do return (← get).files.read (← get).directory path
  write path content := change fun files directory => files.write directory path content
  makeDirectories path := change fun files directory => files.makeDirectories directory path
  openWorkspace := modifyGet openWorkspace
  closeWorkspace path := modify fun machine => machine.removeTree path
  launch := launch

end Machine

end ShaderChain
