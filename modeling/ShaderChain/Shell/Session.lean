import ShaderChain.Machine.Files
import ShaderChain.Number.Duration
import ShaderChain.Number.Integer
import ShaderChain.Shell.Command

/-!
# Sessions

What a script finds and changes while it runs: the files of the machine, the
time that has passed, what was written where, and what belongs to its own
process, that is its directory, variables, arguments and open descriptors.

A run either goes on or stops: at an exit, a signal, the limit of its time, or a
jump out of a loop.
-/

set_option autoImplicit false

namespace ShaderChain.Shell

/-- The characters that stand for the bytes of a text. -/
def ofBytes (bytes : Bytes) : List Char := bytes.map fun b => Char.ofNat b.toNat

/-- The bytes that characters stand for. -/
def toBytes (cs : List Char) : Bytes := cs.map fun c => UInt8.ofNat c.toNat

/-- The characters that stand for the bytes of a text. -/
def ofText (s : String) : List Char := ofBytes (Text.encode s)

/-- The text that characters stand for the bytes of. -/
def toText (cs : List Char) : String := Text.decodeLossy (toBytes cs)

/-- Where a descriptor leads: to a pipe, which keeps what is written until it is read, to a file,
to whose end is written, or nowhere. -/
inductive Channel where
  | pipe (index : Nat)
  | file (location : Location)
  | nowhere
deriving DecidableEq

/-- Why a run does not go on. -/
inductive Stop where
  /-- The process exited. -/
  | exited (status : Nat)
  /-- A function or a script that was read in ended. -/
  | returned (status : Nat)
  /-- A signal ended the process. -/
  | killed (signal : Nat)
  /-- The time was up. -/
  | late
  /-- So many loops are left. -/
  | broken (loops : Nat)
  /-- The next round of a loop is begun, after so many loops inside it are left. -/
  | continued (loops : Nat)
deriving DecidableEq

/-- The state of a run. -/
structure Session where
  files : Files
  /-- The time passed, and the time after which the run is stopped. -/
  clock : Duration
  limit : Duration
  /-- What was written to pipes and not read. -/
  pipes : List (List Char)
  /-- The number of the last process that was started. -/
  processes : Nat
  process : Nat
  directory : Location
  environment : List (String × List Char)
  exported : List String
  functions : List (String × Command)
  name : List Char
  arguments : List (List Char)
  status : Nat
  channels : List (Nat × Channel)
  /-- The line of the command that runs, and how many lines the script has. -/
  line : Nat
  lines : Nat
  /-- Whether a failure ends the script, unless it is the answer to a test. -/
  isStrict : Bool
  isTesting : Bool

/-- A run of a script, which changes a session until it ends or stops. -/
abbrev Run := ExceptT Stop (StateM Session)

namespace Session

/-- The session of a process after another one has run, which changed the machine. -/
def resume (own other : Session) : Session :=
  { own with
    files := other.files
    clock := other.clock
    pipes := other.pipes
    processes := other.processes }

/-- The value of a variable. -/
def valueOf? (s : Session) (name : String) : Option (List Char) := s.environment.lookup name

/-- Where a descriptor leads. -/
def channel (s : Session) (descriptor : Nat) : Channel :=
  (s.channels.lookup descriptor).getD .nowhere

/-- The session with a variable set. -/
def setVariable (s : Session) (name : String) (value : List Char) : Session :=
  { s with environment := (name, value) :: s.environment.filter (·.1 != name) }

/-- The session without a variable. -/
def unsetVariable (s : Session) (name : String) : Session :=
  { s with
    environment := s.environment.filter (·.1 != name)
    exported := s.exported.filter (· != name) }

/-- The session with a descriptor that leads to a channel. -/
def setChannel (s : Session) (descriptor : Nat) (channel : Channel) : Session :=
  { s with channels := (descriptor, channel) :: s.channels.filter (·.1 != descriptor) }

/-- The session with one more pipe, which holds a text. -/
def addPipe (s : Session) (content : List Char) : Session :=
  { s with pipes := s.pipes ++ [content] }

/-- The content of a pipe. -/
def pipe (s : Session) (index : Nat) : List Char := s.pipes[index]?.getD []

/-- The session after a text is written to a channel. -/
def write (s : Session) (channel : Channel) (text : List Char) : Session :=
  match channel with
  | .pipe index => { s with pipes := s.pipes.modify index (· ++ text) }
  | .file location =>
    match s.files.at? location with
    | some (.file content executable) =>
      { s with files := s.files.put location (.file (content ++ toBytes text) executable) }
    | _ => s
  | .nowhere => s

end Session

/-- Gives a value made from the session. -/
def gets {α : Type} (f : Session → α) : Run α := do return f (← get)

/-- Writes to a descriptor. -/
def put (descriptor : Nat) (text : List Char) : Run Unit :=
  modify fun s => s.write (s.channel descriptor) text

/-- Writes a text to the standard output. -/
def say (text : List Char) : Run Unit := put 1 text

/-- Writes a line to the standard error. -/
def complain (text : String) : Run Unit := put 2 (ofText (text ++ "\n"))

/-- Writes a complaint of the script to the standard error, with its name and line. -/
def complainInLine (text : List Char) : Run Unit := do
  let s ← get
  put 2 (s.name ++ ofText (": " ++ Integer.naturalText s.line ++ ": ") ++ text ++ ['\n'])

/-- Takes everything that there is to read from the standard input. -/
def readInput : Run (List Char) := do
  let s ← get
  match s.channel 0 with
  | .pipe index =>
    set { s with pipes := s.pipes.set index [] }
    return s.pipe index
  | _ => return []

/-- Takes a line from the standard input, and whether it was ended. -/
def readLine : Run (List Char × Bool) := do
  let s ← get
  match s.channel 0 with
  | .pipe index =>
    let (line, rest) := (s.pipe index).span (· != '\n')
    set { s with pipes := s.pipes.set index (rest.drop 1) }
    return (line, ! rest.isEmpty)
  | _ => return ([], false)

/-- Lets time pass. The run stops when its time is up. -/
def wait (d : Duration) : Run Unit := do
  let s ← get
  let clock : Duration := ⟨s.clock.nanoseconds + d.nanoseconds⟩
  set { s with clock := clock }
  if s.limit.nanoseconds ≤ clock.nanoseconds then throw .late

/-- The path that a word writes. -/
def pathOf (word : List Char) : Path := ⟨toText word⟩

/-- Takes the new files of an operation, or gives why it failed. -/
def change (operation : Files → Location → Except IoError Files) : Run (Option IoError) := do
  let s ← get
  match operation s.files s.directory with
  | .ok files =>
    set { s with files := files }
    return none
  | .error cause => return some cause

/-- What words say about an error. -/
def causeText : IoError → String
  | .number code => IoError.describe code
  | .other message => message

end ShaderChain.Shell
