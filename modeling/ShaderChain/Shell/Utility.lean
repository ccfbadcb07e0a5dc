import ShaderChain.Shell.Session

/-!
# Utilities

The programs of the machine that scripts use: they read and print texts, copy,
move and remove files, and let time pass. Each is a run that ends in an exit
status.
-/

set_option autoImplicit false

namespace ShaderChain.Shell

/-- A utility, given its arguments. -/
abbrev Utility := List (List Char) → Run Nat

/-- The options in front of the arguments, one letter each, and the arguments after them. -/
def splitOptions : List (List Char) → List Char × List (List Char)
  | ['-', '-'] :: rest => ([], rest)
  | ('-' :: c :: letters) :: rest =>
    let (more, rest) := splitOptions rest
    (c :: letters ++ more, rest)
  | rest => ([], rest)

/-- The last name in a path, and the path of its directory. -/
def splitPath (path : List Char) : List Char × List Char :=
  let bare := (path.reverse.dropWhile (· == '/')).reverse
  let name := (bare.reverse.takeWhile (· != '/')).reverse
  let before := ((bare.reverse.dropWhile (· != '/')).dropWhile (· == '/')).reverse
  if bare.isEmpty then (path.take 1, path.take 1)
  else (name, if before.isEmpty then (if bare.contains '/' then ['/'] else ['.']) else before)

/-- A path that leads on from a directory. -/
def inside (directory name : List Char) : List Char :=
  if directory.getLast? == some '/' then directory ++ name else directory ++ '/' :: name

/-- Complains about a word with the cause of an error. -/
def complainOf (utility : String) (doing : String) (word : List Char) (cause : IoError) :
    Run Nat := do
  complain (utility ++ ": " ++ doing ++ toText word ++
    (if doing.isEmpty then ": " else "': ") ++ causeText cause)
  return 1

/-- Runs a utility's work for each word, and gives the greatest status. -/
def forWords (words : List (List Char)) (work : List Char → Run Nat) : Run Nat :=
  words.foldlM (fun status word => do return max status (← work word)) 0

/-- The bytes of the file that a word leads to. -/
def contentOf (word : List Char) : Run (Except IoError (List Char)) :=
  gets fun s => (s.files.read s.directory (pathOf word)).map ofBytes

/-- Gives each input to a use: the files that are named, or else the standard input. -/
def forInputs (utility : String) (words : List (List Char)) (use : List Char → Run Unit) :
    Run Nat := do
  if words.isEmpty then
    use (← readInput)
    return 0
  else
    forWords words fun word => do
      if word == ['-'] then
        use (← readInput)
        return 0
      else
        match ← contentOf word with
        | .ok content =>
          use content
          return 0
        | .error cause => complainOf utility "" word cause

/-- The lines of a text, each with its end. -/
def linesOf : List Char → List (List Char)
  | [] => []
  | c :: rest =>
    if c == '\n' then [c] :: linesOf rest
    else
      match linesOf rest with
      | [] => [[c]]
      | line :: lines => (c :: line) :: lines

/-- Where a file goes that is copied or moved to a target: into it, if it is a directory. -/
def placeIn (target source : List Char) : Run (List Char) :=
  gets fun s =>
    if s.files.isDirectory s.directory (pathOf target) then inside target (splitPath source).1
    else target

/-- Copies a file. -/
def copyFile (source target : List Char) : Run Nat := do
  match ← contentOf source with
  | .error .isDirectory =>
    complain ("cp: -r not specified; omitting directory '" ++ toText source ++ "'")
    return 1
  | .error cause => complainOf "cp" "cannot stat '" source cause
  | .ok content =>
    let target ← placeIn target source
    let executable ← gets fun s =>
      match s.files.status s.directory (pathOf source) with
      | .ok (.file _ executable) => executable
      | .ok .utility => true
      | _ => false
    let isNew ← gets fun s => ! s.files.hasEntry s.directory (pathOf target)
    let failed ← change fun files directory => do
      let files ← files.write directory (pathOf target) (toBytes content)
      match files.locate directory (pathOf target) with
      | .ok location =>
        return if isNew then files.put location (.file (toBytes content) executable) else files
      | .error cause => throw cause
    match failed with
    | none => return 0
    | some cause => complainOf "cp" "cannot create regular file '" target cause

/-- The entries at a location and below it, moved to another location. -/
def movedTree (files : Files) (source target : Location) : Files :=
  let moved := files.entries.filterMap fun (location, entry) =>
    if source.holds location then
      some (Location.mk (target.names ++ location.names.drop source.names.length), entry)
    else none
  let rest := (files.removeTree source).removeTree target
  ⟨moved ++ rest.entries⟩

/-- Moves a file or directory. -/
def moveFile (source target : List Char) : Run Nat := do
  let isThere ← gets fun s => s.files.status s.directory (pathOf source)
  match isThere with
  | .error cause => complainOf "mv" "cannot stat '" source cause
  | .ok _ =>
    let target ← placeIn target source
    let failed ← change fun files directory => do
      let first ← files.locate directory (pathOf source)
      let second ← files.locate directory (pathOf target)
      return if first = second then files else movedTree files first second
    match failed with
    | none => return 0
    | some cause => complainOf "mv" "cannot move '" target cause

/-- Copies or moves files to a target, the last of some words. -/
def transfer (utility : String) (work : List Char → List Char → Run Nat) : Utility :=
  fun arguments => do
    let (_, words) := splitOptions arguments
    match words.reverse with
    | [] =>
      complain (utility ++ ": missing file operand")
      return 1
    | [word] =>
      complain (utility ++ ": missing destination file operand after '" ++ toText word ++ "'")
      return 1
    | target :: sources => forWords sources.reverse fun source => work source target

/-- Removes files, and directories if asked to. -/
def remove : Utility := fun arguments => do
  let (options, words) := splitOptions arguments
  let isForced := options.contains 'f'
  let isDeep := options.contains 'r' || options.contains 'R'
  forWords words fun word => do
    let s ← get
    match s.files.status s.directory (pathOf word), s.files.locate s.directory (pathOf word) with
    | .ok entry, .ok location =>
      if entry = .directory && !isDeep then
        complainOf "rm" "cannot remove '" word .isDirectory
      else
        set { s with files := s.files.removeTree location }
        return 0
    | .error cause, _ =>
      if isForced && (cause = .notFound || cause = .notDirectory) then return 0
      else complainOf "rm" "cannot remove '" word cause
    | _, .error cause => complainOf "rm" "cannot remove '" word cause

/-- Removes empty directories. -/
def removeDirectory : Utility := fun arguments =>
  forWords (splitOptions arguments).2 fun word => do
    let s ← get
    match s.files.list s.directory (pathOf word), s.files.locate s.directory (pathOf word) with
    | .ok [], .ok location =>
      set { s with files := s.files.remove location }
      return 0
    | .ok _, _ => complainOf "rmdir" "failed to remove '" word (.number 39)
    | .error cause, _ => complainOf "rmdir" "failed to remove '" word cause

/-- Makes directories. -/
def makeDirectory : Utility := fun arguments => do
  let (options, words) := splitOptions arguments
  forWords words fun word => do
    let failed ← change fun files directory =>
      if options.contains 'p' then files.makeDirectories directory (pathOf word)
      else files.makeDirectory directory (pathOf word)
    match failed with
    | none => return 0
    | some cause => complainOf "mkdir" "cannot create directory '" word cause

/-- Makes files that are not there. -/
def touch : Utility := fun arguments =>
  forWords (splitOptions arguments).2 fun word => do
    if ← gets fun s => s.files.isDirectory s.directory (pathOf word) then return 0
    else
      match ← change fun files directory => files.update directory (pathOf word) id with
      | none => return 0
      | some cause => complainOf "touch" "cannot touch '" word cause

/-- Lists the names in directories, those that begin with a point only if asked to. -/
def listNames : Utility := fun arguments => do
  let (options, words) := splitOptions arguments
  let shown (names : List String) : List Char :=
    (names.filter fun name =>
      options.contains 'a' || options.contains 'A' || name.toList.head? != some '.').flatMap
        fun name => ofText (name ++ "\n")
  let dots : List String := if options.contains 'a' then [".", ".."] else []
  let words := if words.isEmpty then [['.']] else words
  forWords words fun word => do
    let s ← get
    match s.files.list s.directory (pathOf word) with
    | .ok names =>
      if 1 < words.length then say (word ++ ofText ":\n")
      say (shown (dots ++ names))
      return 0
    | .error .notDirectory =>
      if s.files.isFile s.directory (pathOf word) then
        say (word ++ ['\n'])
        return 0
      else
        discard (complainOf "ls" "cannot access '" word .notDirectory)
        return 2
    | .error cause =>
      discard (complainOf "ls" "cannot access '" word cause)
      return 2

/-- The time that a word writes: a decimal number, perhaps with a unit. -/
def durationOf (word : List Char) : Option Duration :=
  let scale (unit : Char) : Nat :=
    if unit == 'm' then 60 else if unit == 'h' then 3600 else if unit == 'd' then 86400 else 1
  let (number, unit) : List Char × Nat :=
    match word.reverse with
    | c :: rest => if "smhd".toList.contains c then (rest.reverse, scale c) else (word, 1)
    | [] => ([], 1)
  let whole := number.takeWhile Char.isDigit
  let rest := number.drop whole.length
  let value (digits : List Char) : Nat := digits.foldl (fun n c => n * 10 + (c.toNat - 48)) 0
  match rest with
  | [] => if whole.isEmpty then none else some ⟨value whole * unit * 1000000000⟩
  | '.' :: fraction =>
    if (whole.isEmpty && fraction.isEmpty) || ! fraction.all Char.isDigit then none
    else
      let digits := fraction.take 9
      some ⟨(value whole * 1000000000 + value digits * Nat.pow 10 (9 - digits.length)) * unit⟩
  | _ => none

/-- Lets the times that its arguments write pass. -/
def sleep : Utility := fun arguments => do
  match arguments.find? fun word => (durationOf word).isNone with
  | some word =>
    complain ("sleep: invalid time interval '" ++ toText word ++ "'")
    return 1
  | none =>
    wait ⟨(arguments.filterMap durationOf).foldl (fun total d => total + d.nanoseconds) 0⟩
    return 0

/-- How many lines or bytes an option asks for, `usual` if it asks for none. -/
def countOf (usual : Nat) : List (List Char) → Nat × Bool × List (List Char)
  | ['-', 'n'] :: count :: rest => (number count, false, rest)
  | ['-', 'c'] :: count :: rest => (number count, true, rest)
  | ('-' :: 'n' :: count) :: rest => (number count, false, rest)
  | ('-' :: 'c' :: count) :: rest => (number count, true, rest)
  | ('-' :: c :: count) :: rest =>
    if c.isDigit then (number (c :: count), false, rest)
    else (usual, false, ('-' :: c :: count) :: rest)
  | rest => (usual, false, rest)
where
  /-- The number that digits write. -/
  number (digits : List Char) : Nat :=
    (digits.filter Char.isDigit).foldl (fun n c => n * 10 + (c.toNat - 48)) 0

/-- Prints the front of its inputs. -/
def head : Utility := fun arguments => do
  let (count, isBytes, words) := countOf 10 arguments
  forInputs "head" words fun content =>
    say (if isBytes then content.take count else ((linesOf content).take count).flatten)

/-- Prints the end of its inputs. -/
def tail : Utility := fun arguments => do
  let (count, isBytes, words) := countOf 10 arguments
  forInputs "tail" words fun content =>
    let lines := linesOf content
    say (if isBytes then content.drop (content.length - count)
      else (lines.drop (lines.length - count)).flatten)

/-- Counts lines, words or bytes of the standard input, or of files. -/
def count : Utility := fun arguments => do
  let (options, words) := splitOptions arguments
  let blank (c : Char) : Bool := c == ' ' || c == '\n' || c == '\t'
  let wordCount (content : List Char) : Nat :=
    (content.foldl (fun (n, wasBlank) c =>
      (if wasBlank && !blank c then n + 1 else n, blank c)) ((0, true) : Nat × Bool)).1
  let counts (content : List Char) : List Nat :=
    [('l', content.count '\n'), ('w', wordCount content), ('c', content.length)].filterMap
      fun (letter, n) => if options.isEmpty || options.contains letter then some n else none
  let line (content name : List Char) : List Char :=
    let numbers := (counts content).map Integer.naturalText
    let width := if name.isEmpty then 7 else (Integer.naturalText content.length).length
    let padded := if numbers.length = 1 then numbers else numbers.map fun n =>
      String.ofList (List.replicate (width - n.length) ' ') ++ n
    ofText (Text.joined " " padded) ++ name ++ ['\n']
  if words.isEmpty then
    say (line (← readInput) [])
    return 0
  else
    forWords words fun word => do
      match ← contentOf word with
      | .ok content =>
        say (line content (' ' :: word))
        return 0
      | .error cause => complainOf "wc" "" word cause

/-- Writes the standard input to files and prints it. -/
def tee : Utility := fun arguments => do
  let (options, words) := splitOptions arguments
  let content ← readInput
  say content
  forWords words fun word => do
    let failed ← change fun files directory =>
      files.update directory (pathOf word) fun old =>
        (if options.contains 'a' then old else []) ++ toBytes content
    match failed with
    | none => return 0
    | some cause => complainOf "tee" "" word cause

/-- Makes files executable, or takes that away. -/
def changeMode : Utility := fun arguments => do
  match arguments with
  | mode :: words =>
    let executable := mode.contains 'x' && !mode.contains '-' ||
      (mode.any fun c => c == '1' || c == '3' || c == '5' || c == '7')
    forWords words fun word => do
      let failed ← change fun files directory => do
        let location ← files.locate directory (pathOf word)
        match files.at? location with
        | some (.file content _) => return files.put location (.file content executable)
        | some _ => return files
        | none => throw .notFound
      match failed with
      | none => return 0
      | some cause => complainOf "chmod" "cannot access '" word cause
  | [] =>
    complain "chmod: missing operand"
    return 1

/-- Prints the last name in a path, without an ending if one is given. -/
def baseName : Utility := fun arguments => do
  match arguments with
  | [path] => say ((splitPath path).1 ++ ['\n'])
  | path :: ending :: _ =>
    let name := (splitPath path).1
    say ((if ending.isSuffixOf name && ending != name then name.take (name.length - ending.length)
      else name) ++ ['\n'])
  | [] => complain "basename: missing operand"
  return if arguments.isEmpty then 1 else 0

/-- Prints the directories of paths. -/
def directoryName : Utility := fun arguments => do
  say (arguments.flatMap fun path => (splitPath path).2 ++ ['\n'])
  return 0

/-- Prints numbers, one a line. -/
def sequence : Utility := fun arguments => do
  let numbers := arguments.map countOf.number
  let (low, high) : Nat × Nat :=
    match numbers with
    | [high] => (1, high)
    | [low, high] => (low, high)
    | low :: _ :: high :: _ => (low, high)
    | [] => (1, 0)
  say ((List.range (high + 1 - low)).flatMap fun n =>
    ofText (Integer.naturalText (low + n) ++ "\n"))
  return 0

/-- The utilities by their names. -/
def utilities : List (String × Utility) := [
  ("basename", baseName),
  ("cat", fun arguments => forInputs "cat" (splitOptions arguments).2 say),
  ("chmod", changeMode),
  ("cp", transfer "cp" copyFile),
  ("dirname", directoryName),
  ("head", head),
  ("ls", listNames),
  ("mkdir", makeDirectory),
  ("mv", transfer "mv" moveFile),
  ("rm", remove),
  ("rmdir", removeDirectory),
  ("seq", sequence),
  ("sleep", sleep),
  ("tail", tail),
  ("tee", tee),
  ("touch", touch),
  ("wc", count)]

end ShaderChain.Shell
