import ShaderChain.Parameter.Basic
import ShaderChain.Tool.Error

/-!
# Binding arguments

`bind` turns raw arguments, texts under names, into typed ones. Every parameter
of a schema contributes one value, in the order of the schema: the caller's if
there is one, else the default. The first value that is refused ends the
binding; names that no parameter has are ignored.
-/

set_option autoImplicit false

namespace ShaderChain

/-- Arguments with their values, in the order of a schema. -/
structure BoundArguments where
  values : List (String × ArgumentValue)
deriving DecidableEq

namespace BoundArguments

/-- No arguments. -/
def empty : BoundArguments := ⟨[]⟩

/-- The value of an argument. -/
def get? (args : BoundArguments) (name : String) : Option ArgumentValue :=
  args.values.lookup name

/-- The value of an argument of the type that `select` picks, called `expected`. -/
def typed {α : Type} (expected : String) (select : ArgumentValue → Option α)
    (args : BoundArguments) (name : String) : Except ToolError α :=
  match args.get? name with
  | none => .error (.missingArgument name)
  | some value =>
    match select value with
    | some value => .ok value
    | none => .error (.argumentType name expected)

/-- The value of an argument that is a text. -/
def string (args : BoundArguments) (name : String) : Except ToolError String :=
  args.typed "string" (fun | .string value => some value | _ => none) name

/-- The value of an argument that is a truth value. -/
def boolean (args : BoundArguments) (name : String) : Except ToolError Bool :=
  args.typed "bool" (fun | .bool value => some value | _ => none) name

/-- The value of an argument that is an integer. -/
def integer (args : BoundArguments) (name : String) : Except ToolError Int64 :=
  args.typed "int" (fun | .int value => some value | _ => none) name

/-- The document of bound arguments. -/
def toDocument (args : BoundArguments) : Document :=
  .table [("values", .list (args.values.map fun entry =>
    .list [.text entry.1, entry.2.toDocument]))]

end BoundArguments

/-- The raw value for a parameter: the caller's, else the default. -/
def Parameter.rawValue (raw : Table String) (p : Parameter) : String :=
  (raw.get? p.name).getD p.default

/-- Binds a list of parameters, one after the other. -/
def bindValues (raw : Table String) :
    List Parameter → Except ParameterError (List (String × ArgumentValue))
  | [] => .ok []
  | p :: rest =>
    match p.parse (p.rawValue raw) with
    | .error error => .error error
    | .ok value => (bindValues raw rest).map ((p.name, value) :: ·)

/-- Binds raw arguments against a schema. -/
def bind (schema : List Parameter) (raw : Table String) : Except ParameterError BoundArguments :=
  (bindValues raw schema).map BoundArguments.mk

end ShaderChain
