import ShaderChain.Machine.State
import ShaderChain.Shell.Run

/-!
# Running programs on a machine

What comes of an invocation on a machine whose programs are scripts and
utilities: it is refused, or it is still running at its limit, or it finishes
with what it printed. Only the files of the machine can change.
-/

set_option autoImplicit false

namespace ShaderChain.Machine

/-- How deep the commands of a script can be nested in each other. A script that goes deeper
counts as one whose time is up. -/
def depthLimit : Nat := 6000

/-- Whether a text has the character zero in it. -/
def hasZero (text : String) : Bool := text.toList.contains '\x00'

/-- The location of the directory that an invocation is made in. -/
def startDirectory (machine : Machine) (path : Path) : Except IoError Location :=
  match machine.files.status machine.directory path with
  | .ok .directory => machine.files.locate machine.directory path
  | .ok _ => .error .notDirectory
  | .error cause => .error cause

/-- Where a machine looks for programs. -/
def searchPath (machine : Machine) : List Path :=
  Files.searchDirectories ((machine.environment.get? "PATH").getD "/bin:/usr/bin")

/-- The program that an invocation starts, and the directory it is started in. -/
def find (machine : Machine) (invocation : Invocation) : Except IoError (Program × Location) :=
  if (invocation.program.text :: invocation.directory.text :: invocation.arguments).any hasZero then
    .error .nulInArgument
  else
    match machine.startDirectory invocation.directory with
    | .error cause => .error cause
    | .ok directory =>
      match machine.files.findProgram directory machine.searchPath invocation.program with
      | .error cause => .error cause
      | .ok program => .ok (program, directory)

/-- The session of a process that is started on a machine. What it prints goes to the first two
pipes. -/
def session (machine : Machine) (directory : Location) (limit : Duration) : Shell.Session where
  files := machine.files
  clock := ⟨0⟩
  limit := limit
  pipes := [[], []]
  processes := 1000
  process := 1000
  directory := directory
  environment := machine.environment.entries.map fun (name, value) => (name, Shell.ofText value)
  exported := machine.environment.names
  functions := []
  name := []
  arguments := []
  status := 0
  channels := [(0, .nowhere), (1, .pipe 0), (2, .pipe 1)]
  line := 1
  lines := 0
  isStrict := false
  isTesting := false

/-- What comes of a run that ended, by why it ended and by its session at the end. -/
def outcome (result : Except Shell.Stop Unit) (s : Shell.Session) : LaunchOutcome :=
  let finished (code : Option Int) : LaunchOutcome :=
    .finished code (Shell.toBytes (s.pipe 0)) (Shell.toBytes (s.pipe 1))
  match result with
  | .error .late => .unfinished
  | .error (.exited status) => finished (some status)
  | .error (.returned status) => finished (some status)
  | .error (.killed _) => finished none
  | _ => finished (some s.status)

/-- Runs a program. -/
def launch (invocation : Invocation) : StateM Machine LaunchOutcome := do
  let machine ← get
  match machine.find invocation with
  | .error cause => return .refused cause
  | .ok (program, directory) =>
    if invocation.limit.nanoseconds = 0 then return .unfinished
    else
      let arguments := (program.leading ++ invocation.arguments).map Shell.ofText
      let (result, s) := (Shell.runProgram depthLimit program.utility arguments).run.run
        (machine.session directory invocation.limit)
      set { machine with files := s.files }
      return outcome result s

/-- The host that a machine with scripts and utilities is. -/
def scriptHost : Host (StateM Machine) := host launch

end ShaderChain.Machine
