import ShaderChain.Number.Binary64

/-!
# Documents

The trees that JSON and TOML texts denote. A table keeps its entries in the
order of the text, and may hold a name twice: what a repeated name means is
decided by what is read from the table.

`undefined` stands for text that has the form of a value and denotes none, such
as a number too large for a floating-point number. It is an error only where a
value is asked of it.
-/

set_option autoImplicit false

namespace ShaderChain

/-- A tree of scalars, lists and tables. -/
inductive Document where
  | null
  | bool (value : Bool)
  | int (value : Int)
  | real (value : Binary64)
  | text (value : String)
  | list (items : List Document)
  | table (entries : List (String × Document))
  | undefined

namespace Document

instance : Inhabited Document := ⟨null⟩

/-- The document of a list of texts. -/
def texts (items : List String) : Document := list (items.map text)

/-- The document of a text that may be missing. -/
def optionalText (s : Option String) : Document := (s.map text).getD null

mutual

/-- Whether every value in the document is defined. -/
def isDefined : Document → Bool
  | list items => areDefined items
  | table entries => entriesDefined entries
  | undefined => false
  | _ => true

/-- Whether every document of the list is defined throughout. -/
def areDefined : List Document → Bool
  | [] => true
  | item :: rest => item.isDefined && areDefined rest

/-- Whether every entry is defined throughout. -/
def entriesDefined : List (String × Document) → Bool
  | [] => true
  | entry :: rest => entry.2.isDefined && entriesDefined rest

end

/-- The entries of a table. -/
def entries? : Document → Option (List (String × Document))
  | table entries => some entries
  | _ => none

/-- The value under a name, the last one if the name is repeated. -/
def get? (d : Document) (name : String) : Option Document :=
  (d.entries?.getD []).foldl (fun found entry => if entry.1 = name then some entry.2 else found)
    none

end Document

end ShaderChain
