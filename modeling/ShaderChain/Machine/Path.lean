import ShaderChain.Text.Split

/-!
# Paths

A path is a text. Its parts are separated by slashes; a slash in front makes it
absolute. Joining and taking parts look at the text alone and never at the
files it leads to: parts `.` and `..` are kept in the text.

A system may have paths whose bytes are no text, because they are not UTF-8. These
have no `Path` of their own: such a path can only be named by the text that it is
displayed as, and where it matters that it is none this has to be said beside it.
-/

set_option autoImplicit false

namespace ShaderChain

/-- A path to a file or directory. -/
structure Path where
  text : String
deriving DecidableEq, Repr

namespace Path

/-- What a part of a path says: to start at the root, to stay, to go up, or to go to a name. -/
inductive Component where
  | root
  | current
  | up
  | name (text : String)
deriving DecidableEq, Repr

/-- Whether the path starts at the root. -/
def isAbsolute (p : Path) : Bool := p.text.toList.head? == some '/'

/-- The parts of the text between its slashes, empty ones left out. -/
def parts (p : Path) : List String :=
  ((Text.splitEvery '/' p.text.toList).filter (! ·.isEmpty)).map String.ofList

/-- What a part says in a path. -/
def componentOf (part : String) : Component :=
  if part = "." then .current else if part = ".." then .up else .name part

/-- The components of the path. A `.` counts only in front of a path that is not absolute. -/
def components (p : Path) : List Component :=
  let components := p.parts.map componentOf
  let rest := (components.drop 1).filter (· != .current)
  if p.isAbsolute then .root :: components.filter (· != .current)
  else components.take 1 ++ rest

/-- The path that leads from `p` on to `q`; an absolute `q` stands alone. -/
def join (p : Path) (q : Path) : Path :=
  if q.isAbsolute || p.text.isEmpty then q
  else if p.text.toList.getLast? == some '/' then ⟨p.text ++ q.text⟩
  else ⟨p.text ++ "/" ++ q.text⟩

/-- The path of a name in the directory `p`. -/
def child (p : Path) (name : String) : Path := p.join ⟨name⟩

/-- The name that the last component gives, if it gives one. -/
def fileName? (p : Path) : Option String :=
  match p.components.getLast? with
  | some (.name text) => some text
  | _ => none

/-- The part of a file name after its last point, unless that is its first character. -/
def extensionOf? (name : String) : Option String :=
  match Text.splitFirst? '.' name.toList.reverse with
  | some (after, before) => if before.isEmpty then none else some (String.ofList after.reverse)
  | none => none

/-- The extension of the path's file name. -/
def extension? (p : Path) : Option String := p.fileName?.bind extensionOf?

/-- The characters of a path in reverse, without the slashes and the parts `.` at its end. -/
def dropTrailing : List Char → List Char
  | '/' :: rest => dropTrailing rest
  | '.' :: '/' :: rest => dropTrailing rest
  | cs => cs

/-- The path without its last component; `none` if there is none to take away. -/
def parent? (p : Path) : Option Path :=
  match p.components.getLast? with
  | none | some .root => none
  | some _ =>
    let kept := dropTrailing ((dropTrailing p.text.toList.reverse).dropWhile (· != '/'))
    some ⟨String.ofList (if kept.isEmpty && p.isAbsolute then ['/'] else kept.reverse)⟩

end Path

end ShaderChain
