import ShaderChain.Toml.Moment
import ShaderChain.Toml.Number

/-!
# Reading TOML

A text is read in two steps. `statements?` cuts it into statements: headers of
tables, headers of array elements, and pairs of a key and a value. `assemble?`
puts the statements together, one after the other, into a tree whose tables
remember how they came about; a table may be written in one place only.

`Toml.read?` gives the document of a text.
-/

set_option autoImplicit false

namespace ShaderChain.Toml

/-- How a table came about: by its own header or braces, by a header of one of its parts, or by
a key with points. -/
inductive Origin where
  | explicit
  | implied
  | dotted
deriving DecidableEq, Repr

/-- The tree under construction: values, tables, and arrays of tables written element by
element. -/
inductive Node where
  | leaf (value : Document)
  | table (origin : Origin) (entries : List (String × Node))
  | elements (tables : List (List (String × Node)))

namespace Node

/-- The entry with a name, if there is one. -/
def find? (name : String) (entries : List (String × Node)) : Option Node :=
  (entries.find? fun entry => entry.1 == name).map Prod.snd

/-- The entries with `node` under `name`: in place of what was there, or at the end. -/
def put (name : String) (node : Node) : List (String × Node) → List (String × Node)
  | [] => [(name, node)]
  | entry :: rest => if entry.1 = name then (name, node) :: rest else entry :: put name node rest

/-- Applies `change` to the last element of an array. -/
def changeLast? (change : List (String × Node) → Option (List (String × Node))) :
    List (List (String × Node)) → Option (List (List (String × Node)))
  | [] => none
  | [last] => (change last).map ([·])
  | element :: rest => (changeLast? change rest).map (element :: ·)

/-- Applies `change` to the entries of the table that a path of names leads to. Tables that are
missing on the way come about with the given origin; the way leads through the last element of
an array, and with `dotted` not through a table that was written in another place. -/
def changeAt? (origin : Origin)
    (change : Origin → List (String × Node) → Option (List (String × Node))) :
    List String → Origin → List (String × Node) → Option (List (String × Node))
  | [], here, entries => change here entries
  | name :: path, _, entries =>
    match find? name entries with
    | none =>
      (changeAt? origin change path origin []).map fun inner =>
        put name (.table origin inner) entries
    | some (.leaf _) => none
    | some (.table kind inner) =>
      if origin = .dotted && kind = .explicit then none
      else
        (changeAt? origin change path kind inner).map fun inner =>
          put name (.table kind inner) entries
    | some (.elements tables) =>
      (changeLast? (changeAt? origin change path .explicit) tables).map fun tables =>
        put name (.elements tables) entries

/-- Adds a value under a key to the entries of a table. The parts of the key before the last
lead through tables that came about by keys with points only. -/
def addPair? (key : List String) (value : Document) (entries : List (String × Node)) :
    Option (List (String × Node)) :=
  match key.reverse with
  | [] => none
  | last :: before =>
    let path := before.reverse
    changeAt? .dotted
      (fun origin entries =>
        if decide (origin = .dotted) == path.isEmpty then none
        else if (find? last entries).isSome then none
        else some (entries ++ [(last, .leaf value)]))
      path .explicit entries

mutual

/-- The document of a tree. -/
def toDocument : Node → Document
  | leaf value => value
  | table _ entries => .table (entryDocuments entries)
  | elements tables => .list (elementDocuments tables)

/-- The documents of the entries of a table. -/
def entryDocuments : List (String × Node) → List (String × Document)
  | [] => []
  | entry :: rest => (entry.1, entry.2.toDocument) :: entryDocuments rest

/-- The documents of the elements of an array. -/
def elementDocuments : List (List (String × Node)) → List Document
  | [] => []
  | element :: rest => .table (entryDocuments element) :: elementDocuments rest

end

end Node

/-! ## Values -/

/-- The items of an array up to its closing bracket. -/
def items? (value : Reader Document) : Nat → Reader (List Document)
  | 0, _ => none
  | fuel + 1, cs =>
    match skipLines cs.length cs with
    | ']' :: rest => some ([], rest)
    | cs =>
      match value cs with
      | none => none
      | some (item, rest) =>
        match skipLines rest.length rest with
        | ',' :: more => (items? value fuel more).map fun found => (item :: found.1, found.2)
        | ']' :: more => some ([item], more)
        | _ => none

/-- A key, an equals sign and a value at the front. -/
def pair? (value : Reader Document) : Reader (List String × Document) := fun cs =>
  match key? (cs.length + 1) cs with
  | some (key, '=' :: rest) =>
    (value (skipSpace rest)).map fun found => ((key, found.1), found.2)
  | _ => none

/-- The pairs of a table in braces up to its closing brace, the first one being due. -/
def pairs? (value : Reader Document) : Nat → Reader (List (List String × Document))
  | 0, _ => none
  | fuel + 1, cs =>
    match pair? value cs with
    | none => none
    | some (pair, rest) =>
      match skipSpace rest with
      | ',' :: more => (pairs? value fuel more).map fun found => (pair :: found.1, found.2)
      | '\x7d' :: more => some ([pair], more)
      | _ => none

/-- The document of a table in braces. -/
def inlineTable? (pairs : List (List String × Document)) : Option Document :=
  (pairs.foldlM (fun entries pair => Node.addPair? pair.1 pair.2 entries) []).map fun entries =>
    .table (Node.entryDocuments entries)

/-- A value at the front, inside of which arrays and tables may be nested `depth` deep. -/
def value? : Nat → Reader Document
  | depth, cs =>
    match cs with
    | '"' :: _ => (string? cs).map fun found => (.text found.1, found.2)
    | '\'' :: _ => (string? cs).map fun found => (.text found.1, found.2)
    | '[' :: rest =>
      match depth with
      | 0 => none
      | depth + 1 =>
        (items? (value? depth) (rest.length + 1) rest).map fun found =>
          (.list found.1, found.2)
    | '\x7b' :: rest =>
      match depth with
      | 0 => none
      | depth + 1 =>
        match skipSpace rest with
        | '\x7d' :: more => some (.table [], more)
        | _ =>
          match pairs? (value? depth) (rest.length + 1) rest with
          | none => none
          | some (pairs, more) => (inlineTable? pairs).map (·, more)
    | 't' :: 'r' :: 'u' :: 'e' :: rest => some (.bool true, rest)
    | 'f' :: 'a' :: 'l' :: 's' :: 'e' :: rest => some (.bool false, rest)
    | _ => (moment? cs).or (number? cs)

/-- How deep arrays and tables in braces may be nested. -/
def depthLimit : Nat := 79

/-! ## Statements -/

/-- What a line of a text says: the header of a table, the header of an array element, or a key
with its value. -/
inductive Statement where
  | header (path : List String)
  | element (path : List String)
  | pair (key : List String) (value : Document)

/-- The key of a header, up to its closing bracket. -/
def headerKey? : Reader (List String) := fun cs =>
  match key? (cs.length + 1) cs with
  | some (key, ']' :: rest) => some (key, rest)
  | _ => none

/-- A statement at the front. -/
def statement? : Reader Statement
  | '[' :: '[' :: rest =>
    match headerKey? rest with
    | some (path, ']' :: more) => some (.element path, more)
    | _ => none
  | '[' :: rest => (headerKey? rest).map fun found => (.header found.1, found.2)
  | cs => (pair? (value? depthLimit) cs).map fun found => (.pair found.1.1 found.1.2, found.2)

/-- The statements of a text, one for each line that is not empty. -/
def statements? : Nat → List Char → Option (List Statement)
  | 0, _ => none
  | fuel + 1, cs =>
    match skipLines cs.length cs with
    | [] => some []
    | cs =>
      match statement? cs with
      | none => none
      | some (statement, rest) =>
        match endOfLine? rest with
        | none => none
        | some more => (statements? fuel more).map (statement :: ·)

/-! ## Assembly -/

/-- Opens the table of a header in the entries of its parent. -/
def openTable? (name : String) (entries : List (String × Node)) : Option (List (String × Node)) :=
  match Node.find? name entries with
  | none => some (entries ++ [(name, .table .explicit [])])
  | some (.table .implied inner) => some (Node.put name (.table .explicit inner) entries)
  | some _ => none

/-- Adds an element to the array of a header in the entries of its parent. -/
def openElement? (name : String) (entries : List (String × Node)) :
    Option (List (String × Node)) :=
  match Node.find? name entries with
  | none => some (entries ++ [(name, .elements [[]])])
  | some (.elements tables) => some (Node.put name (.elements (tables ++ [[]])) entries)
  | some _ => none

/-- Applies `opening` to the parent of the table that a path leads to. -/
def openAt? (opening : String → List (String × Node) → Option (List (String × Node)))
    (path : List String) (entries : List (String × Node)) : Option (List (String × Node)) :=
  match path.reverse with
  | [] => none
  | last :: before =>
    Node.changeAt? .implied (fun _ entries => opening last entries) before.reverse .explicit entries

/-- Adds the statements to a tree, pairs going to the table that `current` leads to. -/
def assembleFrom? (current : List String) (entries : List (String × Node)) :
    List Statement → Option (List (String × Node))
  | [] => some entries
  | .header path :: rest =>
    (openAt? openTable? path entries).bind fun entries => assembleFrom? path entries rest
  | .element path :: rest =>
    (openAt? openElement? path entries).bind fun entries => assembleFrom? path entries rest
  | .pair key value :: rest =>
    (Node.changeAt? .implied (fun _ entries => Node.addPair? key value entries) current .explicit
      entries).bind fun entries => assembleFrom? current entries rest

/-- The document that statements describe. -/
def assemble? (statements : List Statement) : Option Document :=
  (assembleFrom? [] [] statements).map fun entries => .table (Node.entryDocuments entries)

/-- The characters of a text without the mark of its encoding. -/
def skipMark : List Char → List Char
  | c :: rest => if c.toNat = 0xFEFF then rest else c :: rest
  | [] => []

/-- The document of a TOML text. -/
def read? (s : String) : Option Document :=
  let cs := skipMark s.toList
  (statements? (cs.length + 1) cs).bind assemble?

end ShaderChain.Toml
