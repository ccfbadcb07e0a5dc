import ShaderChain.Shell.Pattern
import ShaderChain.Shell.Session

/-!
# Expansion

How the parts that a word stands for become the words of a command: parts that
are not quoted are divided at blanks, arguments stay apart from each other, and
a word with the characters of a pattern stands for the paths that it matches.
-/

set_option autoImplicit false

namespace ShaderChain.Shell

/-- A part of what a word stands for. -/
inductive Part where
  /-- A text that stays in one piece. -/
  | fixed (text : List Char) (isQuoted : Bool)
  /-- A text that is divided at blanks. -/
  | loose (text : List Char)
  /-- The place between two arguments. -/
  | division
  /-- No arguments at all. -/
  | absent
deriving DecidableEq

namespace Part

/-- The text of a part. -/
def text : Part → List Char
  | fixed text _ => text
  | loose text => text
  | division => [' ']
  | absent => []

/-- The part with its text quoted. -/
def quoted : Part → Part
  | loose text => fixed text true
  | fixed text _ => fixed text true
  | part => part

/-- The text of a part, each character marked that is quoted. -/
def marked : Part → MarkedText
  | fixed text isQuoted => text.map (·, isQuoted)
  | part => part.text.map (·, false)

end Part

/-- Some words, and the word that is being made. -/
structure Fields where
  done : List MarkedText
  current : Option MarkedText

namespace Fields

/-- The fields with the current word ended. -/
def close (f : Fields) : Fields :=
  match f.current with
  | some word => ⟨f.done ++ [word], none⟩
  | none => f

/-- The fields with more text in the current word. -/
def extend (f : Fields) (text : MarkedText) : Fields :=
  { f with current := some (f.current.getD [] ++ text) }

/-- The fields after a text that is divided where `separates` holds. -/
def divide (separates : Char → Bool) (f : Fields) (text : List Char) : Fields :=
  text.foldl (fun f c => if separates c then f.close else f.extend [(c, false)]) f

/-- The fields after a part. -/
def add (separates : Char → Bool) (f : Fields) : Part → Fields
  | .fixed text isQuoted =>
    if text.isEmpty && !isQuoted then f else f.extend (text.map (·, isQuoted))
  | .loose text => f.divide separates text
  | .division => f.close
  | .absent => if f.current = some [] then { f with current := none } else f

/-- The words that parts are divided into. -/
def ofParts (separates : Char → Bool) (parts : List Part) : List MarkedText :=
  (parts.foldl (add separates) ⟨[], none⟩).close.done

end Fields

/-- The parts of a path pattern between its slashes. -/
def pathParts (text : MarkedText) : List MarkedText :=
  text.foldr (fun c parts =>
    if c.1 == '/' then [] :: parts
    else
      match parts with
      | first :: rest => (c :: first) :: rest
      | [] => [[c]]) [[]]

/-- The paths that parts of a pattern match, from a path on. -/
def pathsFrom (files : Files) (directory : Location) (base : List Char) :
    List MarkedText → List (List Char)
  | [] => [base]
  | part :: rest =>
    let pattern := Pattern.ofText part
    let slash : List Char := if rest.isEmpty then [] else ['/']
    if pattern.isPlain then
      let next := base ++ part.map (·.1)
      if next.isEmpty || files.hasEntry directory (pathOf next) then
        pathsFrom files directory (next ++ slash) rest
      else []
    else
      let names :=
        match files.list directory (pathOf (if base.isEmpty then ['.'] else base)) with
        | .ok names => names.map ofText
        | .error _ => []
      let found := names.filter fun name =>
        pattern.fits name && (name.head? != some '.' || pattern.head? == some (.exactly '.'))
      found.flatMap fun name =>
        if rest.isEmpty || files.isDirectory directory (pathOf (base ++ name)) then
          pathsFrom files directory (base ++ name ++ slash) rest
        else []

/-- The words that a word stands for: the paths that it matches, or else itself. -/
def pathsOf (s : Session) (word : MarkedText) : List (List Char) :=
  let own := word.map (·.1)
  if (Pattern.ofText word).isPlain then [own]
  else
    match pathsFrom s.files s.directory [] (pathParts word) with
    | [] => [own]
    | paths => paths

/-- The characters at which texts are divided. -/
def separators (s : Session) : List Char := (s.valueOf? "IFS").getD [' ', '\t', '\n']

/-- What stands between the arguments when they are written as one text. -/
def joiner (s : Session) : List Char := (separators s).take 1

/-- The arguments of the script written as one text. -/
def argumentText (s : Session) : List Char := (joiner s).intercalate s.arguments

/-- The value of a parameter. -/
def parameter? (s : Session) (name : String) : Option (List Char) :=
  match name with
  | "#" => some (ofText (Integer.naturalText s.arguments.length))
  | "?" => some (ofText (Integer.naturalText s.status))
  | "$" => some (ofText (Integer.naturalText s.process))
  | "0" => some s.name
  | "-" => some []
  | "!" => none
  | "PWD" => some (ofText s.directory.path.text)
  | "@" => if s.arguments.isEmpty then none else some (argumentText s)
  | "*" => if s.arguments.isEmpty then none else some (argumentText s)
  | name =>
    match Integer.readChars name.toList with
    | .ok n => s.arguments[n.toNat - 1]?
    | .error _ => s.valueOf? name

/-- The parts that arguments stand for. -/
def argumentParts (arguments : List (List Char)) (isQuoted : Bool) : List Part :=
  if arguments.isEmpty then [.absent]
  else
    (arguments.map fun argument =>
      if isQuoted then Part.fixed argument true else .loose argument).intersperse .division

/-- The parts that a parameter stands for. -/
def parameterParts (s : Session) (name : String) (isQuoted : Bool) : List Part :=
  if name = "@" || (name = "*" && !isQuoted) then argumentParts s.arguments isQuoted
  else
    let value := (parameter? s name).getD []
    if isQuoted then [.fixed value true] else [.loose value]

end ShaderChain.Shell
