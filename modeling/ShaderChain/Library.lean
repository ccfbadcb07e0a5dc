import ShaderChain.Definition
import ShaderChain.Host

/-!
# The pipeline library

The usable pipeline definitions of a directory, under their names. A file that
cannot be read or used is skipped; of files with one name the last in the order
of paths counts. What happened to each file is told by events, in the order in
which the files are read.
-/

set_option autoImplicit false

namespace ShaderChain

/-- A definition with the file it comes from. -/
structure LoadedPipeline where
  definition : Definition
  path : Path
deriving DecidableEq

/-- Why a file of the directory is not in the library. -/
inductive LoadFault where
  | unusable (fault : DefinitionFault)
  | redefined (name : String) (path : Path)
deriving DecidableEq

/-- What happened to a file. -/
inductive LoadEvent where
  | loaded (name : String) (path : Path)
  | skipped (path : Path) (fault : LoadFault)
deriving DecidableEq

namespace LoadFault

/-- The fault in words. -/
def message : LoadFault → String
  | unusable fault => fault.toError.message
  | redefined name path => "pipeline '" ++ name ++ "' redefined in " ++ path.text

end LoadFault

/-- A definition that has no fault. -/
def Definition.usable (d : Definition) : Except DefinitionFault Definition :=
  match d.fault? with
  | some fault => .error fault
  | none => .ok d

/-- Definitions under their names. -/
structure Library where
  pipelines : Table LoadedPipeline

namespace Library

/-- The library without definitions. -/
def empty : Library := ⟨.empty⟩

/-- The definition with a name. -/
def get? (l : Library) (name : String) : Option LoadedPipeline := l.pipelines.get? name

/-- The names, in increasing order. -/
def names (l : Library) : List String := l.pipelines.names

/-- The definitions, in the order of their names. -/
def entries (l : Library) : List LoadedPipeline := l.pipelines.values

/-- The number of definitions. -/
def size (l : Library) : Nat := l.pipelines.size

/-- The event of an entry that another one takes the place of. -/
def replacement (name : String) (path : Path) (previous : Option LoadedPipeline) :
    List LoadEvent :=
  (previous.map fun entry => LoadEvent.skipped entry.path (.redefined name path)).toList

/-- The library with what was read from a file, and the events of that. -/
def add (l : Library) (path : Path) : Except DefinitionFault Definition → Library × List LoadEvent
  | .error fault => (l, [.skipped path (.unusable fault)])
  | .ok d =>
    (⟨l.pipelines.insert d.name ⟨d, path⟩⟩,
      replacement d.name path (l.get? d.name) ++ [.loaded d.name path])

/-- The library with what was read from several files. -/
def addAll (l : Library) :
    List (Path × Except DefinitionFault Definition) → Library × List LoadEvent
  | [] => (l, [])
  | (path, read) :: rest =>
    let (l, events) := l.add path read
    let (l, later) := l.addAll rest
    (l, events ++ later)

end Library

namespace Host

variable {m : Type → Type} [Monad m]

/-- The definition that a file holds, which may have faults. -/
def readDefinition (host : Host m) (path : Path) : m (Except DefinitionFault Definition) := do
  match ← host.readText path with
  | .error cause => return .error (.unreadable path cause)
  | .ok text => return Definition.read text

/-- The definition that a file holds, if it can be used. -/
def readUsable (host : Host m) (path : Path) : m (Except DefinitionFault Definition) := do
  return (← host.readDefinition path) >>= Definition.usable

/-- The files among some paths. -/
def filesAmong (host : Host m) : List Path → m (List Path)
  | [] => return []
  | path :: rest => do
    let isFile ← host.isFile path
    let files ← host.filesAmong rest
    return if isFile then path :: files else files

/-- What some files hold, each with its path. -/
def readAll (host : Host m) : List Path → m (List (Path × Except DefinitionFault Definition))
  | [] => return []
  | path :: rest => do
    let read ← host.readUsable path
    return (path, read) :: (← host.readAll rest)

/-- The paths of the names in a directory that a definition may have, in increasing order. -/
def candidates (dir : Path) (names : List String) : List Path :=
  ((names.mergeSort fun a b => decide (a ≤ b)).map dir.child).filter
    (·.extension? == some "toml")

/-- The library of a directory, with what happened to its files. A directory that cannot be
listed has an empty library. -/
def loadLibrary (host : Host m) (dir : Path) : m (Library × List LoadEvent) := do
  match ← host.list dir with
  | .error _ => return (.empty, [])
  | .ok names =>
    let paths ← host.filesAmong (candidates dir names)
    return Library.empty.addAll (← host.readAll paths)

end Host

end ShaderChain
