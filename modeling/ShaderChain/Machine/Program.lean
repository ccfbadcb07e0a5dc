import ShaderChain.Machine.Files

/-!
# Programs

What runs when a file is started as a program. A utility of the machine runs
itself; any other executable file has to name its interpreter in its first line,
and runs as an argument of it. A program given by a bare name is looked for in
the directories of a search path.
-/

set_option autoImplicit false

namespace ShaderChain

/-- A utility of the machine, and the arguments that come before those given. -/
structure Program where
  utility : String
  leading : List String
deriving DecidableEq, Repr

namespace Files

/-- The path and the argument that the first line of a file names as its interpreter. -/
def interpreter? (content : Bytes) : Option (Path × List String) :=
  match content with
  | 35 :: 33 :: rest =>
    let line := Text.decodeLossy (rest.takeWhile (· != 10))
    match Text.splitFirst? ' ' (line.toList.dropWhile (· == ' ')) with
    | some (path, argument) =>
      let argument := (argument.dropWhile (· == ' ')).reverse.dropWhile (· == ' ')
      some (⟨String.ofList path⟩,
        if argument.isEmpty then [] else [String.ofList argument.reverse])
    | none => some (⟨String.ofList (line.toList.dropWhile (· == ' '))⟩, [])
  | _ => none

/-- The program that a path leads to. The number bounds how many interpreters there can be. -/
def programWithin (fs : Files) (directory : Location) : Nat → Path → Except IoError Program
  | 0, _ => .error (.number 40)
  | depth + 1, path =>
    match fs.status directory path, fs.locate directory path with
    | .ok .utility, .ok location => .ok ⟨location.names.getLast?.getD "", []⟩
    | .ok (.file content true), _ =>
      match interpreter? content with
      | none => .error .execFormat
      | some (interpreter, argument) =>
        match fs.programWithin directory depth interpreter with
        | .ok program => .ok ⟨program.utility, program.leading ++ argument ++ [path.text]⟩
        | .error cause => .error cause
    | .ok _, _ => .error .permissionDenied
    | .error cause, _ => .error cause

/-- The program that a path leads to. -/
def program (fs : Files) (directory : Location) (path : Path) : Except IoError Program :=
  fs.programWithin directory 5 path

/-- The first program under a name in some directories, where `refusal` says what the search ends
in if there is none. A file that may not be started does not end the search. -/
def searchProgram (fs : Files) (directory : Location) (name : Path) (refusal : IoError) :
    List Path → Except IoError Program
  | [] => .error refusal
  | dir :: rest =>
    let path := if dir.text.isEmpty then Path.child ⟨"."⟩ name.text else dir.join name
    match fs.program directory path with
    | .ok program => .ok program
    | .error cause =>
      if cause = .permissionDenied then fs.searchProgram directory name cause rest
      else if cause = .notFound || cause = .notDirectory then
        fs.searchProgram directory name refusal rest
      else .error cause

/-- The program that a command names, by a path or by a bare name. -/
def findProgram (fs : Files) (directory : Location) (searchPath : List Path) (command : Path) :
    Except IoError Program :=
  if command.text.toList.contains '/' then fs.program directory command
  else if command.text.isEmpty then .error .notFound
  else fs.searchProgram directory command .notFound searchPath

/-- The directories that the text of a search path lists. -/
def searchDirectories (text : String) : List Path :=
  (Text.splitEvery ':' text.toList).map fun part => ⟨String.ofList part⟩

end Files

end ShaderChain
