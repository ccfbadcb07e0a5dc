import ShaderChain.Machine.Program
import ShaderChain.Shell.Arithmetic
import ShaderChain.Shell.Condition
import ShaderChain.Shell.Expansion
import ShaderChain.Shell.Format
import ShaderChain.Shell.Reader
import ShaderChain.Shell.Utility

/-!
# Running scripts

What a command does to a session. The commands of a script, the words in them
and the programs that they start call each other; the first argument of each of
these functions bounds how deep, and a script that goes deeper counts as one
whose time is up.
-/

set_option autoImplicit false

namespace ShaderChain.Shell

/-- Gives what a run ends in, and goes on. -/
def attempt (run : Run Unit) : Run (Except Stop Unit) := ExceptT.lift run.run

/-- Ends a run as another one has ended. -/
def endAs (result : Except Stop Unit) : Run Unit :=
  match result with
  | .ok _ => return
  | .error stop => throw stop

/-- Sets the status. -/
def setStatus (status : Nat) : Run Unit := modify fun s => { s with status := status }

/-- Ends the script with a complaint. -/
def failInLine (text : List Char) : Run Unit := do
  complainInLine text
  throw (.exited 2)

/-- What a command does that changes the script's own session, given its name and arguments. The
commands whose faults end the script are special. -/
structure Builtin where
  isSpecial : Bool
  run : List (List Char) → Run Unit

/-- Sets the status by whether something holds. -/
def setTruth (b : Bool) : Run Unit := setStatus (if b then 0 else 1)

/-- Prints its arguments, with the escapes in them replaced. -/
def echo (arguments : List (List Char)) : Run Unit := do
  let (ending, arguments) : List Char × List (List Char) :=
    match arguments with
    | ['-', 'n'] :: rest => ([], rest)
    | arguments => (['\n'], arguments)
  let (text, isLast) := unescape ([' '].intercalate arguments)
  say (text ++ if isLast then [] else ending)
  setStatus 0

/-- Prints arguments in a format. -/
def printFormatted (arguments : List (List Char)) : Run Unit := do
  match if arguments.head? == some ['-', '-'] then arguments.drop 1 else arguments with
  | [] =>
    complainInLine (ofText "printf: usage: printf format [arg ...]")
    setStatus 2
  | format :: arguments =>
    let filled := fill format arguments
    say filled.text
    filled.faults.forM fun fault =>
      complainInLine (ofText "printf: " ++ fault ++ ofText ": expected numeric value")
    setTruth filled.faults.isEmpty

/-- Judges a condition. -/
def test (name : String) (arguments : List (List Char)) : Run Unit := do
  let fault (text : List Char) : Run Unit := do
    complainInLine (ofText (name ++ ": ") ++ text)
    setStatus 2
  let judge (words : List (List Char)) : Run Unit := do
    match Condition.holds (← get) words with
    | .ok value => setTruth value
    | .error cause => fault cause.text
  if name = "[" then
    if arguments.getLast? == some [']'] then judge arguments.dropLast
    else fault (ofText "missing ]")
  else judge arguments

/-- The number that a builtin takes, `usual` if none is given. -/
def countArgument (name : String) (usual : Nat) (arguments : List (List Char)) : Run Nat := do
  match arguments with
  | [] => return usual
  | word :: _ =>
    match Integer.readChars word with
    | .ok n =>
      if 0 ≤ n then return n.toNat
      else
        failInLine (ofText (name ++ ": Illegal number: ") ++ word)
        return 0
    | .error _ =>
      failInLine (ofText (name ++ ": Illegal number: ") ++ word)
      return 0

/-- The numbers of signals by their names. -/
def signals : List (String × Nat) :=
  [("HUP", 1), ("INT", 2), ("QUIT", 3), ("ILL", 4), ("TRAP", 5), ("ABRT", 6), ("BUS", 7),
   ("FPE", 8), ("KILL", 9), ("USR1", 10), ("SEGV", 11), ("USR2", 12), ("PIPE", 13),
   ("ALRM", 14), ("TERM", 15)]

/-- The signal that a word names. -/
def signal? (word : List Char) : Option Nat :=
  match Integer.readChars word with
  | .ok n => some n.toNat
  | .error _ => signals.lookup (String.ofList word)

/-- Sends a signal to a process. Only the script's own process is there to take it. -/
def kill (arguments : List (List Char)) : Run Unit := do
  let (signal, targets) : Option Nat × List (List Char) :=
    match arguments with
    | ['-', 's'] :: word :: rest => (signal? word, rest)
    | ('-' :: word) :: rest => (signal? word, rest)
    | arguments => (some 15, arguments)
  let own := Integer.naturalText (← get).process
  match signal, targets with
  | some signal, target :: _ =>
    if target == ofText own then
      if signal = 0 then setStatus 0 else throw (.killed signal)
    else
      complainInLine (ofText "kill: No such process")
      setStatus 1
  | _, _ =>
    complainInLine (ofText "kill: Usage: kill [-s sigspec | -signum | -sigspec] [pid | job]...")
    setStatus 2

/-- Goes to a directory. -/
def changeDirectory (arguments : List (List Char)) : Run Unit := do
  let s ← get
  let target := arguments.headD ((s.valueOf? "HOME").getD [])
  let path := pathOf target
  match s.files.isDirectory s.directory path, s.files.locate s.directory path with
  | true, .ok location =>
    set { s with directory := location, status := 0 }
  | _, _ =>
    complainInLine (ofText "cd: can't cd to " ++ target)
    setStatus 2

/-- Sets options and the arguments of the script. -/
def setOptions : List (List Char) → Run Unit
  | [] => setStatus 0
  | ['-', '-'] :: rest => modify fun s => { s with arguments := rest, status := 0 }
  | ('-' :: letters) :: rest => do
    if letters.contains 'e' then modify fun s => { s with isStrict := true }
    setOptions rest
  | ('+' :: letters) :: rest => do
    if letters.contains 'e' then modify fun s => { s with isStrict := false }
    setOptions rest
  | rest => modify fun s => { s with arguments := rest, status := 0 }

/-- Leaves out the first of the script's arguments. -/
def shift (arguments : List (List Char)) : Run Unit := do
  let count ← countArgument "shift" 1 arguments
  let s ← get
  if s.arguments.length < count then failInLine (ofText "shift: can't shift that many")
  else set { s with arguments := s.arguments.drop count, status := 0 }

/-- The name and the value that a word assigns. -/
def assignment (word : List Char) : String × Option (List Char) :=
  match Text.splitFirst? '=' word with
  | some (name, value) => (String.ofList name, some value)
  | none => (String.ofList word, none)

/-- Sets variables, and marks them as exported if asked to. -/
def declare (isExport : Bool) (arguments : List (List Char)) : Run Unit := do
  arguments.forM fun word => do
    let (name, value) := assignment word
    modify fun s =>
      let s := match value with
        | some value => s.setVariable name value
        | none => s
      if isExport then { s with exported := name :: s.exported.filter (· != name) } else s
  setStatus 0

/-- Reads a line into variables; the last one takes what is left. -/
def readVariables (arguments : List (List Char)) : Run Unit := do
  let names := (splitOptions arguments).2.map String.ofList
  let (line, isWhole) ← readLine
  let isSeparator (c : Char) : Bool := c == ' ' || c == '\t'
  let assign (line : List Char) (name : String) (isLast : Bool) : Run (List Char) := do
    let line := line.dropWhile isSeparator
    let value := if isLast then (line.reverse.dropWhile isSeparator).reverse
      else line.takeWhile fun c => !isSeparator c
    modify fun s => s.setVariable name value
    return line.drop value.length
  discard (names.dropLast.foldlM (fun line name => assign line name false) line >>= fun line =>
    match names.getLast? with
    | some name => assign line name true
    | none => return line)
  setTruth isWhole

/-- The commands that need nothing but the session. -/
def builtins : List (String × Builtin) := [
  (":", ⟨true, fun _ => setStatus 0⟩),
  ("true", ⟨false, fun _ => setStatus 0⟩),
  ("false", ⟨false, fun _ => setStatus 1⟩),
  ("echo", ⟨false, echo⟩),
  ("printf", ⟨false, printFormatted⟩),
  ("test", ⟨false, test "test"⟩),
  ("[", ⟨false, test "["⟩),
  ("cd", ⟨false, changeDirectory⟩),
  ("pwd", ⟨false, fun _ => do
    say (ofText ((← get).directory.path.text ++ "\n"))
    setStatus 0⟩),
  ("exit", ⟨true, fun arguments => do
    throw (.exited ((← countArgument "exit" (← get).status arguments) % 256))⟩),
  ("return", ⟨true, fun arguments => do
    throw (.returned ((← countArgument "return" (← get).status arguments) % 256))⟩),
  ("break", ⟨true, fun arguments => do throw (.broken (← countArgument "break" 1 arguments))⟩),
  ("continue", ⟨true, fun arguments => do
    throw (.continued (← countArgument "continue" 1 arguments))⟩),
  ("shift", ⟨true, shift⟩),
  ("set", ⟨true, setOptions⟩),
  ("export", ⟨true, declare true⟩),
  ("readonly", ⟨true, declare false⟩),
  ("local", ⟨false, declare false⟩),
  ("unset", ⟨true, fun arguments => do
    (splitOptions arguments).2.forM fun word => modify fun s => s.unsetVariable (String.ofList word)
    setStatus 0⟩),
  ("read", ⟨false, readVariables⟩),
  ("kill", ⟨false, kill⟩),
  ("trap", ⟨true, fun _ => setStatus 0⟩),
  ("umask", ⟨false, fun _ => setStatus 0⟩),
  ("ulimit", ⟨false, fun _ => setStatus 0⟩),
  ("wait", ⟨false, fun _ => setStatus 0⟩)]

/-- The builtins that other programs can start as well, since there are utilities of these names. -/
def sharedNames : List String :=
  ["true", "false", "echo", "printf", "test", "[", "pwd", "kill"]

/-- The commands that run other commands. -/
def runningNames : List String := ["eval", ".", "exec", "command"]

/-- The directories where programs are looked for. -/
def searchPathOf (s : Session) : List Path :=
  Files.searchDirectories (toText ((s.valueOf? "PATH").getD []))

/-- Opens a file for writing, empty or at its end. -/
def openForWriting (s : Session) (target : List Char) (isAppend : Bool) :
    Except IoError (Session × Channel) := do
  let files ← s.files.update s.directory (pathOf target) fun old => if isAppend then old else []
  let location ← files.locate s.directory (pathOf target)
  match files.at? location with
  | some (.file _ _) => return ({ s with files := files }, .file location)
  | _ => return ({ s with files := files }, .nowhere)

/-- Redirects a descriptor to what a word names. Gives whether that could be done. -/
def redirectTo (descriptor : Nat) (kind : RedirectionKind) (target : List Char) : Run Bool := do
  let s ← get
  let fault (doing : String) (cause : String) : Run Bool := do
    complainInLine (ofText (doing ++ " ") ++ target ++ ofText (": " ++ cause))
    return false
  match kind with
  | .hereText =>
    set ((s.addPipe target).setChannel descriptor (.pipe s.pipes.length))
    return true
  | .duplicate =>
    if target == ['-'] then
      set (s.setChannel descriptor .nowhere)
      return true
    else
      match Integer.readChars target with
      | .ok n =>
        match s.channels.lookup n.toNat with
        | some channel =>
          set (s.setChannel descriptor channel)
          return true
        | none =>
          complainInLine (target ++ ofText ": Bad file descriptor")
          return false
      | .error _ => fault "Bad fd number:" ""
  | .input =>
    match s.files.read s.directory (pathOf target) with
    | .ok content =>
      set ((s.addPipe (ofBytes content)).setChannel descriptor (.pipe s.pipes.length))
      return true
    | .error cause =>
      fault "cannot open" (if cause = .notFound then "No such file" else causeText cause)
  | .output => opened s descriptor (openForWriting s target false) fault
  | .append => opened s descriptor (openForWriting s target true) fault
where
  /-- Takes a file that was opened for writing. -/
  opened (s : Session) (descriptor : Nat) (result : Except IoError (Session × Channel))
      (fault : String → String → Run Bool) : Run Bool := do
    match result with
    | .ok (opened, channel) =>
      set (opened.setChannel descriptor channel)
      return true
    | .error cause =>
      set s
      fault "cannot create" (if cause = .notFound then "Directory nonexistent" else causeText cause)

/-- The session of a new process, with the variables that are exported. -/
def begun (s : Session) : Session :=
  { s with
    environment := s.environment.filter fun (name, _) => s.exported.contains name
    functions := []
    processes := s.processes + 1
    process := s.processes + 1
    isStrict := false
    isTesting := false }

/-- What is printed when a signal ends a process. -/
def signalText (signal : Nat) : String :=
  match signal with
  | 1 => "Hangup"
  | 3 => "Quit"
  | 4 => "Illegal instruction"
  | 6 => "Aborted"
  | 8 => "Floating point exception"
  | 9 => "Killed"
  | 11 => "Segmentation fault"
  | 14 => "Alarm clock"
  | 15 => "Terminated"
  | _ => "Signal " ++ Integer.naturalText signal

/-- Runs a process of its own, and takes its status. -/
def inProcess (start : Session → Session) (run : Run Unit) : Run Unit := do
  let own ← get
  set (start own)
  let result ← attempt run
  let after ← get
  set (own.resume after)
  match result with
  | .error .late => throw .late
  | .error (.exited status) => setStatus status
  | .error (.returned status) => setStatus status
  | .error (.killed signal) =>
    if after.process = own.process then throw (.killed signal)
    else
      if signal != 2 && signal != 13 then complain (signalText signal)
      setStatus (128 + signal)
  | _ => setStatus after.status

/-- Runs with other channels, and goes back to those of before. -/
def keepingChannels (run : Run Unit) : Run Unit := do
  let channels := (← get).channels
  let result ← attempt run
  modify fun s => { s with channels := channels }
  endAs result

/-- Runs a function or a script that is read in, up to where it returns. -/
def untilReturn (run : Run Unit) : Run Unit := do
  match ← attempt run with
  | .error (.returned status) => setStatus status
  | result => endAs result

/-- Runs a test, whose failure does not end a strict script. -/
def asTest (run : Run Unit) : Run Unit := do
  let wasTesting := (← get).isTesting
  modify fun s => { s with isTesting := true }
  run
  modify fun s => { s with isTesting := wasTesting }

/-- Ends a strict script after a failure. -/
def endIfStrict : Run Unit := do
  let s ← get
  if s.isStrict && !s.isTesting && s.status != 0 then throw (.exited s.status)

/-- Handles a jump out of a round of a loop: gives whether the loop goes on. -/
def afterRound (result : Except Stop Unit) : Run Bool := do
  match result with
  | .ok _ => return true
  | .error (.broken loops) =>
    if 1 < loops then throw (.broken (loops - 1))
    else
      setStatus 0
      return false
  | .error (.continued loops) =>
    if 1 < loops then throw (.continued (loops - 1)) else return true
  | .error stop => throw stop

/-- The number that a variable holds. -/
def numberVariable (s : Session) (name : String) : Int :=
  match (parameter? s name).map Integer.readChars with
  | some (.ok n) => n
  | _ => 0

mutual

/-- The parts that a piece of a word stands for. -/
def expandPiece : Nat → Piece → Run (List Part)
  | 0, _ => throw .late
  | fuel + 1, piece =>
    match piece with
    | .plain text => return [.fixed text false]
    | .quoted text => return [.fixed text true]
    | .parameter name change word isQuoted => expandParameter fuel name change word isQuoted
    | .output body isQuoted => do
      let index := (← get).pipes.length
      inProcess (fun s => (s.addPipe []).setChannel 1 (.pipe index)) (execute fuel body)
      let text := (← get).pipe index
      let text := (text.reverse.dropWhile (· == '\n')).reverse
      return [if isQuoted then .fixed text true else .loose text]
    | .number expression => do
      let text ← expandText fuel expression
      match Arithmetic.eval? (numberVariable (← get)) text with
      | some n => return [.fixed (ofText (Integer.text n)) false]
      | none =>
        failInLine (ofText "arithmetic expression: expecting primary: \"" ++ text ++ ['"'])
        return []

/-- The parts that a parameter stands for, with what is made of its value. -/
def expandParameter : Nat → String → Option Change → Word → Bool → Run (List Part)
  | 0, _, _, _, _ => throw .late
  | fuel + 1, name, change, word, isQuoted => do
    let s ← get
    let value := parameter? s name
    let isMissing (emptyToo : Bool) : Bool :=
      match value with
      | none => true
      | some text => emptyToo && text.isEmpty
    let own := parameterParts s name isQuoted
    let given : Run (List Part) := do
      let parts ← expandWord fuel word
      return if isQuoted then parts.map Part.quoted else parts
    let one (text : List Char) : List Part := [if isQuoted then .fixed text true else .loose text]
    match change with
    | none => return own
    | some .length => return [.fixed (ofText (Integer.naturalText (value.getD []).length)) isQuoted]
    | some (.orElse emptyToo) => if isMissing emptyToo then given else return own
    | some (.instead emptyToo) => if isMissing emptyToo then return [] else given
    | some (.assignElse emptyToo) =>
      if isMissing emptyToo then do
        let text ← expandText fuel word
        modify fun s => s.setVariable name text
        return one text
      else return own
    | some (.demand emptyToo) =>
      if isMissing emptyToo then do
        let text ← expandText fuel word
        let usual := if emptyToo then "parameter not set or null" else "parameter not set"
        failInLine (ofText (name ++ ": ") ++ if text.isEmpty then ofText usual else text)
        return []
      else return own
    | some (.dropFront longest) => do
      let pattern := Pattern.ofText (← expandMarked fuel word)
      let text := value.getD []
      return one (((pattern.dropFront? longest text).map (·.2)).getD text)
    | some (.dropBack longest) => do
      let pattern := Pattern.ofText (← expandMarked fuel word)
      let text := value.getD []
      return one (((pattern.dropBack? longest text).map (·.1)).getD text)

/-- The parts that a word stands for. -/
def expandWord : Nat → Word → Run (List Part)
  | 0, _ => throw .late
  | fuel + 1, word => do
    let home := ((← get).valueOf? "HOME").getD []
    let (front, word) : List Part × Word :=
      match word with
      | [.plain ['~']] => ([.fixed home true], [])
      | .plain ['~'] :: .plain ['/'] :: rest => ([.fixed home true], .plain ['/'] :: rest)
      | word => ([], word)
    return front ++ (← word.mapM fun piece => expandPiece fuel piece).flatten

/-- The text that a word stands for, in one piece. -/
def expandText : Nat → Word → Run (List Char)
  | 0, _ => throw .late
  | fuel + 1, word => do return (← expandWord fuel word).flatMap Part.text

/-- The text that a word stands for, with each character marked that is quoted. -/
def expandMarked : Nat → Word → Run MarkedText
  | 0, _ => throw .late
  | fuel + 1, word => do return (← expandWord fuel word).flatMap Part.marked

/-- The words that words stand for. -/
def expandWords : Nat → List Word → Run (List (List Char))
  | 0, _ => throw .late
  | fuel + 1, words => do
    return (← words.mapM fun word => do
      let parts ← expandWord fuel word
      let s ← get
      return (Fields.ofParts (separators s).contains parts).flatMap (pathsOf s)).flatten

/-- Opens what redirections name. Gives whether that could be done. -/
def redirect : Nat → List Redirection → Run Bool
  | 0, _ => throw .late
  | _ + 1, [] => return true
  | fuel + 1, .mk descriptor kind target :: rest => do
    if ← redirectTo descriptor kind (← expandText fuel target) then redirect fuel rest
    else return false

/-- Runs a command. -/
def execute : Nat → Command → Run Unit
  | 0, _ => throw .late
  | fuel + 1, command =>
    match command with
    | .nothing => return
    | .simple linesAfter assignments words redirections => do
      modify fun s => { s with line := s.lines + 1 - linesAfter }
      simple fuel assignments words redirections
      endIfStrict
    | .sequence first second => do
      execute fuel first
      execute fuel second
    | .both first second => do
      asTest (execute fuel first)
      if (← get).status = 0 then execute fuel second
    | .either first second => do
      asTest (execute fuel first)
      if (← get).status != 0 then execute fuel second
    | .negation body => do
      asTest (execute fuel body)
      setTruth ((← get).status != 0)
    | .pipe first second => do
      let index := (← get).pipes.length
      modify fun s => s.addPipe []
      inProcess (·.setChannel 1 (.pipe index)) (execute fuel first)
      inProcess (·.setChannel 0 (.pipe index)) (execute fuel second)
      endIfStrict
    | .conditional test body otherwise => do
      asTest (execute fuel test)
      if (← get).status = 0 then execute fuel body
      else
        setStatus 0
        execute fuel otherwise
    | .loop isUntil test body => loop fuel isUntil test body 0
    | .forEach name words body => do
      let values ←
        match words with
        | none => gets fun s => s.arguments
        | some words => expandWords fuel words
      setStatus 0
      forEach fuel name values body
    | .choose subject branches => do
      let text ← expandText fuel subject
      setStatus 0
      choose fuel text branches
    | .group body redirections =>
      if redirections.isEmpty then execute fuel body
      else
        keepingChannels do
          if ← redirect fuel redirections then execute fuel body else setStatus 2
    | .subshell body redirections => do
      inProcess id do
        if ← redirect fuel redirections then execute fuel body else setStatus 2
      endIfStrict
    | .define name body =>
      modify fun s => { s with functions := (name, body) :: s.functions, status := 0 }

/-- Runs the rounds of a loop. The status is that of the last round. -/
def loop : Nat → Bool → Command → Command → Nat → Run Unit
  | 0, _, _, _, _ => throw .late
  | fuel + 1, isUntil, test, body, status => do
    asTest (execute fuel test)
    if ((← get).status = 0) != isUntil then
      if ← afterRound (← attempt (execute fuel body)) then
        loop fuel isUntil test body (← get).status
    else setStatus status

/-- Runs a command for each value of a variable. -/
def forEach : Nat → String → List (List Char) → Command → Run Unit
  | 0, _, _, _ => throw .late
  | _ + 1, _, [], _ => return
  | fuel + 1, name, value :: rest, body => do
    modify fun s => s.setVariable name value
    if ← afterRound (← attempt (execute fuel body)) then forEach fuel name rest body

/-- Runs the first branch one of whose patterns matches a text. -/
def choose : Nat → List Char → List (List Word × Command) → Run Unit
  | 0, _, _ => throw .late
  | _ + 1, _, [] => return
  | fuel + 1, text, (patterns, body) :: rest => do
    let fits ← patterns.anyM fun pattern => do
      return (Pattern.ofText (← expandMarked fuel pattern)).fits text
    if fits then execute fuel body else choose fuel text rest

/-- Sets the variables of assignments. -/
def assign : Nat → List (String × Word) → Run Unit
  | 0, _ => throw .late
  | _ + 1, [] => return
  | fuel + 1, (name, word) :: rest => do
    let value ← expandText fuel word
    modify fun s => s.setVariable name value
    assign fuel rest

/-- Runs a simple command. -/
def simple : Nat → List (String × Word) → List Word → List Redirection → Run Unit
  | 0, _, _, _ => throw .late
  | fuel + 1, assignments, words, redirections => do
    let fields ← expandWords fuel words
    match fields with
    | [] =>
      if words.isEmpty then setStatus 0
      assign fuel assignments
      keepingChannels do
        unless ← redirect fuel redirections do setStatus 2
    | [['e', 'x', 'e', 'c']] =>
      assign fuel assignments
      if ← redirect fuel redirections then setStatus 0 else throw (.exited 2)
    | name :: arguments =>
      let text := toText name
      let isSpecial :=
        match builtins.lookup text with
        | some builtin => builtin.isSpecial
        | none => runningNames.contains text && text != "command"
      let before := (← get).environment
      let exportedBefore := (← get).exported
      assign fuel assignments
      modify fun s => { s with exported := assignments.map (·.1) ++ s.exported }
      keepingChannels do
        if ← redirect fuel redirections then invoke fuel text name arguments
        else if isSpecial then throw (.exited 2)
        else setStatus 2
      unless assignments.isEmpty || isSpecial do
        modify fun s => { s with environment := before }
      unless assignments.isEmpty do
        modify fun s => { s with exported := exportedBefore }

/-- Runs the builtin or the program that a name stands for. -/
def invoke : Nat → String → List Char → List (List Char) → Run Unit
  | 0, _, _, _ => throw .late
  | fuel + 1, text, name, arguments => do
    match (← get).functions.lookup text, builtins.lookup text with
    | some body, _ =>
      let own := (← get).arguments
      modify fun s => { s with arguments := arguments }
      untilReturn (execute fuel body)
      modify fun s => { s with arguments := own }
    | none, some builtin => builtin.run arguments
    | none, none =>
      if text = "eval" then runText fuel ([' '].intercalate arguments)
      else if text = "." then
        match arguments with
        | [] => failInLine (ofText ".: filename argument required")
        | path :: _ =>
          match ← contentOf path with
          | .ok content => untilReturn (runText fuel content)
          | .error _ => failInLine (ofText ".: cannot open " ++ path ++ ofText ": No such file")
      else if text = "exec" then
        match arguments with
        | [] => setStatus 0
        | name :: arguments =>
          startProgram fuel id name arguments
          throw (.exited (← get).status)
      else if text = "command" then
        match arguments with
        | ['-', 'v'] :: name :: _ =>
          let s ← get
          if (builtins.lookup (toText name)).isSome || runningNames.contains (toText name) then
            say (name ++ ['\n'])
            setStatus 0
          else
            let found := (searchPathOf s).find? fun dir =>
              (s.files.program s.directory (dir.join (pathOf name))).isOk
            match found with
            | some dir =>
              say (ofText ((dir.join (pathOf name)).text ++ "\n"))
              setStatus 0
            | none => setStatus 127
        | name :: arguments => invoke fuel (toText name) name arguments
        | [] => setStatus 0
      else startProgram fuel begun name arguments

/-- Starts a program as a process, whose session `start` makes. -/
def startProgram : Nat → (Session → Session) → List Char → List (List Char) → Run Unit
  | 0, _, _, _ => throw .late
  | fuel + 1, start, name, arguments => do
    let s ← get
    match s.files.findProgram s.directory (searchPathOf s) (pathOf name) with
    | .ok program =>
      inProcess start (runProgram fuel program.utility
        (program.leading.map ofText ++ arguments))
    | .error cause =>
      if cause = .execFormat then
        inProcess start (runProgram fuel "sh" (name :: arguments))
      else if cause = .permissionDenied then
        complainInLine (name ++ ofText ": Permission denied")
        setStatus 126
      else
        complainInLine (name ++ ofText ": not found")
        setStatus 127

/-- Runs a utility of the machine in its own process. -/
def runProgram : Nat → String → List (List Char) → Run Unit
  | 0, _, _ => throw .late
  | fuel + 1, name, arguments => do
    if ["sh", "dash", "bash"].contains name then runShell fuel arguments
    else if name = "env" then
      let settings := arguments.takeWhile (·.contains '=')
      declare true settings
      match arguments.drop settings.length with
      | [] =>
        let s ← get
        say (s.environment.reverse.flatMap fun (name, value) =>
          ofText (name ++ "=") ++ value ++ ['\n'])
        setStatus 0
      | name :: arguments => startProgram fuel id name arguments
    else
      match builtins.lookup name, utilities.lookup name with
      | _, some utility => setStatus (← utility arguments)
      | some builtin, none =>
        modify fun s => { s with name := ofText name, line := 1 }
        builtin.run arguments
      | none, none => setStatus 0

/-- Runs a script in the session as it is. -/
def runText : Nat → List Char → Run Unit
  | 0, _ => throw .late
  | fuel + 1, text => do
    match read? text with
    | some command =>
      let lines := (← get).lines
      modify fun s => { s with lines := text.count '\n' }
      execute fuel command
      modify fun s => { s with lines := lines }
    | none => failInLine (ofText "Syntax error: Unterminated quoted string")

/-- Runs the shell with the arguments that it was started with. -/
def runShell : Nat → List (List Char) → Run Unit
  | 0, _ => throw .late
  | fuel + 1, arguments => do
    modify fun s => { s with line := 1, name := ofText "sh", arguments := [], status := 0 }
    match arguments with
    | [] => runText fuel (← readInput)
    | ['-', 'c'] :: text :: rest =>
      modify fun s => { s with name := rest.headD s.name, arguments := rest.drop 1 }
      runText fuel text
    | ('-' :: 'e' :: letters) :: rest =>
      modify fun s => { s with isStrict := true }
      runShell fuel (if letters.isEmpty then rest else ('-' :: letters) :: rest)
    | path :: rest =>
      match ← contentOf path with
      | .ok content =>
        modify fun s => { s with name := path, arguments := rest }
        runText fuel content
      | .error _ =>
        complain ("sh: 0: cannot open " ++ toText path ++ ": No such file")
        throw (.exited 2)

end

end ShaderChain.Shell
