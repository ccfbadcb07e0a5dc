import ShaderChain.Machine.IoError
import ShaderChain.Machine.Path
import ShaderChain.Table
import ShaderChain.Text.Utf8

/-!
# Files

A tree of files as a value: entries at locations, a location being the names on
the way to it from the root. Where a path leads depends on the tree, for every
name in it but the last has to be that of a directory.

The laws say what an entry put at a location changes: the entry at that location
(`at?_put_self`) and no other (`at?_put_of_ne`).
-/

set_option autoImplicit false

namespace ShaderChain

/-- A place in the tree: the names on the way from the root. -/
structure Location where
  names : List String
deriving DecidableEq, Repr

namespace Location

/-- The top of the tree. -/
def root : Location := ⟨[]⟩

/-- The place of a name in the directory at a location. -/
def child (l : Location) (name : String) : Location := ⟨l.names ++ [name]⟩

/-- The place of the directory that holds a location; the root holds itself. -/
def parent (l : Location) : Location := ⟨l.names.dropLast⟩

/-- Whether a location is `l` or below it. -/
def holds (l other : Location) : Bool := l.names.isPrefixOf other.names

/-- The absolute path of a location. -/
def path (l : Location) : Path := ⟨"/" ++ Text.joined "/" l.names⟩

end Location

/-- What stands at a location: a directory, a file, a program that belongs to the machine, or a
device that takes whatever is written and gives nothing. -/
inductive Entry where
  | directory
  | file (content : Bytes) (executable : Bool)
  | utility
  | sink
deriving DecidableEq

/-- A tree of files. -/
structure Files where
  entries : List (Location × Entry)

namespace Files

/-- The tree without entries. -/
def empty : Files := ⟨[]⟩

/-- What stands at a location. The root is always a directory. -/
def at? (fs : Files) (l : Location) : Option Entry :=
  if l = .root then some .directory else fs.entries.lookup l

/-- The tree with an entry at a location, whatever was there before. -/
def put (fs : Files) (l : Location) (entry : Entry) : Files :=
  ⟨(l, entry) :: fs.entries.filter (·.1 != l)⟩

/-- The tree without the entry at a location. -/
def remove (fs : Files) (l : Location) : Files := ⟨fs.entries.filter (·.1 != l)⟩

/-- The tree without the entries at a location and below it. -/
def removeTree (fs : Files) (l : Location) : Files := ⟨fs.entries.filter fun e => ! l.holds e.1⟩

/-- The names in the directory at a location, in increasing order. -/
def namesIn (fs : Files) (l : Location) : List String :=
  (Table.ofList (fs.entries.filterMap fun e =>
    if e.1.parent = l then e.1.names.getLast?.map (·, ()) else none)).names

theorem lookup_filter_ne {l other : Location} (entries : List (Location × Entry))
    (distinct : l ≠ other) :
    (entries.filter (·.1 != l)).lookup other = entries.lookup other := by
  induction entries with
  | nil => rfl
  | cons first rest ih =>
    obtain ⟨place, held⟩ := first
    by_cases same : place = l
    · subst same
      have passed : (other == place) = false := by simp [Ne.symm distinct]
      simp [List.lookup_cons, passed, ih]
    · simp [same, List.lookup_cons, ih]

/-- An entry stands where it was put. -/
theorem at?_put_self (fs : Files) {l : Location} (entry : Entry) (below : l ≠ .root) :
    (fs.put l entry).at? l = some entry := by
  simp [at?, put, below]

/-- Putting an entry at a location changes no other. -/
theorem at?_put_of_ne (fs : Files) {l other : Location} (entry : Entry) (distinct : l ≠ other) :
    (fs.put l entry).at? other = fs.at? other := by
  have passed : (other == l) = false := by simp [Ne.symm distinct]
  simp [at?, put, List.lookup_cons, passed, lookup_filter_ne fs.entries distinct]

/-! ## Where a path leads -/

/-- The most bytes that a name may have. -/
def nameLimit : Nat := 255

/-- The most bytes that a path may have. -/
def pathLimit : Nat := 4095

/-- The location that parts of a path lead to from the directory at a location. All but the last
have to be there. -/
def follow (fs : Files) (start : Location) : List String → Except IoError Location
  | [] => .ok start
  | part :: rest =>
    if part = "." then fs.follow start rest
    else if part = ".." then fs.follow start.parent rest
    else if nameLimit < part.utf8ByteSize then .error .nameTooLong
    else if rest.isEmpty then .ok (start.child part)
    else
      match fs.at? (start.child part) with
      | some .directory => fs.follow (start.child part) rest
      | some _ => .error .notDirectory
      | none => .error .notFound

/-- The location that a path leads to from a working directory. -/
def locate (fs : Files) (directory : Location) (p : Path) : Except IoError Location :=
  if p.text.toList.contains '\x00' then .error .nulInName
  else if p.text.isEmpty then .error .notFound
  else if pathLimit < p.text.utf8ByteSize then .error .nameTooLong
  else
    let start := if p.isAbsolute then .root else directory
    match fs.at? start with
    | some .directory => fs.follow start p.parts
    | _ => .error .notFound

/-- Whether the path ends in a slash, and so asks for a directory. -/
def asksForDirectory (p : Path) : Bool := p.text.toList.getLast? == some '/'

/-- What stands where a path leads. -/
def status (fs : Files) (directory : Location) (p : Path) : Except IoError Entry :=
  match fs.locate directory p with
  | .error cause => .error cause
  | .ok l =>
    match fs.at? l with
    | none => .error .notFound
    | some .directory => .ok .directory
    | some entry => if asksForDirectory p then .error .notDirectory else .ok entry

/-- Whether the path leads to a file. -/
def isFile (fs : Files) (directory : Location) (p : Path) : Bool :=
  match fs.status directory p with
  | .ok (.file _ _) => true
  | .ok .utility => true
  | _ => false

/-- Whether the path leads to a directory. -/
def isDirectory (fs : Files) (directory : Location) (p : Path) : Bool :=
  match fs.status directory p with
  | .ok .directory => true
  | _ => false

/-- Whether the path leads to anything. -/
def hasEntry (fs : Files) (directory : Location) (p : Path) : Bool :=
  (fs.status directory p).isOk

/-! ## Reading and writing -/

/-- The bytes of the file that a path leads to. -/
def read (fs : Files) (directory : Location) (p : Path) : Except IoError Bytes :=
  match fs.status directory p with
  | .error cause => .error cause
  | .ok .directory => .error .isDirectory
  | .ok (.file content _) => .ok content
  | .ok _ => .ok []

/-- The names in the directory that a path leads to. -/
def list (fs : Files) (directory : Location) (p : Path) : Except IoError (List String) :=
  match fs.status directory p, fs.locate directory p with
  | .ok .directory, .ok l => .ok (fs.namesIn l)
  | .ok _, _ => .error .notDirectory
  | .error cause, _ => .error cause

/-- Gives the file that a path leads to the content that `change` makes of the one it has. A file
that is not there is made. -/
def update (fs : Files) (directory : Location) (p : Path) (change : Bytes → Bytes) :
    Except IoError Files :=
  match fs.locate directory p with
  | .error cause => .error cause
  | .ok l =>
    match fs.at? l with
    | some .directory => .error .isDirectory
    | none =>
      if asksForDirectory p then .error .isDirectory else .ok (fs.put l (.file (change []) false))
    | some entry =>
      if asksForDirectory p then .error .notDirectory
      else
        match entry with
        | .file content executable => .ok (fs.put l (.file (change content) executable))
        | _ => .ok fs

/-- Gives the file that a path leads to a content. -/
def write (fs : Files) (directory : Location) (p : Path) (content : Bytes) :
    Except IoError Files :=
  fs.update directory p fun _ => content

/-- Makes a directory where a path leads. -/
def makeDirectory (fs : Files) (directory : Location) (p : Path) : Except IoError Files :=
  match fs.locate directory p with
  | .error cause => .error cause
  | .ok l => if (fs.at? l).isSome then .error .exists_ else .ok (fs.put l .directory)

/-- Makes a directory and, where they are missing, those that lead to it. The number `depth`
bounds how many there can be. -/
def makeDirectoriesWithin (fs : Files) (directory : Location) :
    Nat → Path → Except IoError Files
  | 0, _ => .error .notFound
  | depth + 1, p =>
    if p.components.isEmpty then .ok fs
    else
      match fs.makeDirectory directory p with
      | .ok fs => .ok fs
      | .error cause =>
        if cause = .notFound then
          match p.parent? with
          | none => .error (.other "failed to create whole tree")
          | some parent =>
            match fs.makeDirectoriesWithin directory depth parent with
            | .error cause => .error cause
            | .ok fs =>
              match fs.makeDirectory directory p with
              | .ok fs => .ok fs
              | .error cause => if fs.isDirectory directory p then .ok fs else .error cause
        else if fs.isDirectory directory p then .ok fs
        else .error cause

/-- Makes a directory and, where they are missing, those that lead to it. -/
def makeDirectories (fs : Files) (directory : Location) (p : Path) : Except IoError Files :=
  fs.makeDirectoriesWithin directory (p.components.length + 1) p

end Files

end ShaderChain
