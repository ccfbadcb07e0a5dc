import ShaderChain.Document.Basic
import ShaderChain.Number.Shortest
import ShaderChain.Text.Split
import ShaderChain.Toml.Quoting

/-!
# Writing TOML

A document is written table by table. Under the header of a table come its
scalars and lists, one per line; then its tables, each with the path to it as
its header. A list of tables is written as an array of tables. A table without
anything to write under its header has one only if it is empty. Entries that
are `null` are left out.

A document with an integer outside the signed 64-bit range cannot be written.
-/

set_option autoImplicit false

namespace ShaderChain.Toml

mutual

/-- Whether every integer of the document is in the range of TOML. -/
def isWritable : Document → Bool
  | .int value => Integer.least ≤ value && value ≤ Integer.greatest
  | .list items => areWritable items
  | .table entries => entriesWritable entries
  | _ => true

/-- Whether every document of the list can be written. -/
def areWritable : List Document → Bool
  | [] => true
  | item :: rest => isWritable item && areWritable rest

/-- Whether every entry can be written. -/
def entriesWritable : List (String × Document) → Bool
  | [] => true
  | entry :: rest => isWritable entry.2 && entriesWritable rest

end

/-- Whether a document is a table. -/
def isTable : Document → Bool
  | .table _ => true
  | _ => false

/-- Whether a list is written as an array of tables. -/
def isArrayOfTables (items : List Document) : Bool := !items.isEmpty && items.all isTable

/-- A list with its items already written: one line up to one item, else one line per item. -/
def arrayText : List String → String
  | [] => "[]"
  | [one] => "[" ++ one ++ "]"
  | items =>
    "[\n" ++ String.join (items.map fun item => "    " ++ item ++ ",\n") ++ "]"

/-- A floating-point number, with a point in a finite one. -/
def realText (value : Binary64) : String :=
  match value with
  | .finite .. => if value.text.toList.contains '.' then value.text else value.text ++ ".0"
  | .infinite _ => value.text
  | .nan => "nan"

mutual

/-- A value as it stands after an equals sign. -/
def inlineText : Document → String
  | .null => "\x7b\x7d"
  | .bool true => "true"
  | .bool false => "false"
  | .int value => Integer.text value
  | .real value => realText value
  | .text value => quoteValue value
  | .list items => arrayText (inlineItems items)
  | .table [] => "\x7b\x7d"
  | .table (entry :: rest) =>
    "\x7b " ++ Text.joined ", " (inlineEntries (entry :: rest)) ++ " \x7d"
  | .undefined => "\x7b\x7d"

/-- The items of a list as they stand in it. -/
def inlineItems : List Document → List String
  | [] => []
  | item :: rest => inlineText item :: inlineItems rest

/-- The entries of a table in braces. -/
def inlineEntries : List (String × Document) → List String
  | [] => []
  | entry :: rest => (quoteKey entry.1 ++ " = " ++ inlineText entry.2) :: inlineEntries rest

end

/-- The line of an entry, if it is one that stands under the header of its table. -/
def lineOf? (entry : String × Document) : Option String :=
  match entry.2 with
  | .null => none
  | .table _ => none
  | .list items =>
    if isArrayOfTables items then none
    else some (quoteKey entry.1 ++ " = " ++ inlineText (.list items) ++ "\n")
  | value => some (quoteKey entry.1 ++ " = " ++ inlineText value ++ "\n")

/-- The lines under the header of a table. -/
def linesOf (entries : List (String × Document)) : List String := entries.filterMap lineOf?

/-- Whether a table has nothing to write at all. -/
def isEmptyTable (entries : List (String × Document)) : Bool :=
  entries.all fun entry => match entry.2 with | .null => true | _ => false

/-- The dotted path of a header. -/
def pathText (path : List String) : String := Text.joined "." (path.map quoteKey)

mutual

/-- The tables of a document that are written under the path of its entry, as sections of a
header with its lines. -/
def sectionsOf (path : List String) : Document → List String
  | .table entries =>
    let lines := linesOf entries
    let own :=
      if lines.isEmpty && !isEmptyTable entries then []
      else ["[" ++ pathText path ++ "]\n" ++ String.join lines]
    own ++ entrySections path entries
  | .list items => if isArrayOfTables items then elementSections path items else []
  | _ => []

/-- The sections of all entries of a table. -/
def entrySections (path : List String) : List (String × Document) → List String
  | [] => []
  | entry :: rest => sectionsOf (path ++ [entry.1]) entry.2 ++ entrySections path rest

/-- The sections of the elements of an array of tables. -/
def elementSections (path : List String) : List Document → List String
  | [] => []
  | .table entries :: rest =>
    ("[[" ++ pathText path ++ "]]\n" ++ String.join (linesOf entries)) ::
      (entrySections path entries ++ elementSections path rest)
  | _ :: rest => elementSections path rest

end

/-- The text of a document: its lines, then its sections with an empty line between neighbours. -/
def write (d : Document) : String :=
  let entries := d.entries?.getD []
  let lines := linesOf entries
  Text.joined "\n" ((if lines.isEmpty then [] else [String.join lines]) ++ entrySections [] entries)

/-- The text of a document that can be written. -/
def write? (d : Document) : Option String := if isWritable d then some (write d) else none

end ShaderChain.Toml
