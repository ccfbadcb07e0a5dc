import ShaderChain.Document.Record
import ShaderChain.Number.Shortest
import ShaderChain.Parameter.Basic

/-!
# Steps

A step asks for a tool by name and gives it raw arguments, texts under names.
In a document an argument may also be written as a truth value or a number and
then stands for its text.
-/

set_option autoImplicit false

namespace ShaderChain

/-- A tool by name with raw arguments. -/
structure Step where
  tool : String
  arguments : Table String
deriving DecidableEq

namespace Step

/-- The step without arguments. -/
def ofTool (tool : String) : Step := ⟨tool, .empty⟩

/-- The step with one more argument; the name's last value counts. -/
def withArgument (s : Step) (name value : String) : Step :=
  { s with arguments := s.arguments.insert name value }

/-- The text of an integer written in a document; one that no signed 64-bit integer holds is
rounded to a floating-point number. -/
def integerText (value : Int) : Option String :=
  if Integer.least ≤ value && value ≤ Integer.greatest then some (Integer.text value)
  else (Binary64.ofDecimal? (value < 0) value.natAbs 0).map Binary64.text

/-- The text of an argument's document. -/
def argumentText? : Document → Option String
  | .text value => some value
  | .bool value => some (ArgumentValue.boolText value)
  | .int value => integerText value
  | .real value => some value.text
  | _ => none

/-- The document of a table of texts. -/
def tableDocument (t : Table String) : Document :=
  .table (t.entries.map fun entry => (entry.1, .text entry.2))

/-- The document of a step. -/
def toDocument (s : Step) : Document :=
  .table [("tool", .text s.tool), ("arguments", tableDocument s.arguments)]

/-- The fields of a step's document. -/
def fields : List Document.Field := [⟨"tool", .required⟩, ⟨"arguments", .defaulted⟩]

/-- The step of a document. -/
def ofDocument? (d : Document) : Option Step :=
  match d.record? fields with
  | some [some tool, arguments] =>
    match tool.text?, Document.orDefault? .empty (Document.table? argumentText?) arguments with
    | some tool, some arguments => some ⟨tool, arguments⟩
    | _, _ => none
  | _ => none

end Step

end ShaderChain
