import ShaderChain.Pipeline.Error
import ShaderChain.Text.Quoted
import ShaderChain.Tool.Basic

/-!
# The registry

The tools that steps can name. A tool is registered once under its own name;
its descriptor is checked first, so that every registered tool has a name, takes
some language, declares each parameter once, selects only output languages it
declares, and has defaults that its parameters take.
-/

set_option autoImplicit false

namespace ShaderChain

/-- Why a tool may not be registered. -/
inductive ToolFault where
  | noName
  | noInputs (tool : String)
  | repeatedParameter (tool parameter : String)
  | undeclaredLanguage (tool language : String)
  | badDefault (tool : String) (error : ParameterError)
  | alreadyRegistered (tool : String)
deriving DecidableEq

namespace ToolFault

/-- The fault in words. -/
def message : ToolFault → String
  | noName => "tool name is required"
  | noInputs tool => "tool '" ++ tool ++ "' must accept at least one input language"
  | repeatedParameter tool parameter =>
    "tool '" ++ tool ++ "' declares parameter '" ++ parameter ++ "' twice"
  | undeclaredLanguage tool language =>
    "tool '" ++ tool ++ "' can select output language '" ++ language ++
      "' which it does not declare"
  | badDefault tool error => "tool '" ++ tool ++ "' has a bad default: " ++ error.message
  | alreadyRegistered tool => "tool '" ++ tool ++ "' is already registered"

end ToolFault

namespace ToolDescriptor

/-- The first fault among parameters, `seen` being the names of those before them. -/
def parameterFault? (d : ToolDescriptor) (seen : List String) : List Parameter → Option ToolFault
  | [] => none
  | p :: rest =>
    if seen.contains p.name then some (.repeatedParameter d.name p.name)
    else
      match (p.outputLanguages?.getD []).find? (! d.outputLanguages.contains ·) with
      | some language => some (.undeclaredLanguage d.name language)
      | none => d.parameterFault? (p.name :: seen) rest

/-- The first fault of a descriptor. -/
def fault? (d : ToolDescriptor) : Option ToolFault :=
  if Text.isBlankText d.name then some .noName
  else if d.inputLanguages.isEmpty then some (.noInputs d.name)
  else
    match d.parameterFault? [] d.parameters with
    | some fault => some fault
    | none =>
      match bind d.parameters .empty with
      | .error error => some (.badDefault d.name error)
      | .ok _ => none

end ToolDescriptor

/-- Tools under their names. -/
structure Registry (m : Type → Type) where
  tools : Table (Tool m)

namespace Registry

variable {m : Type → Type}

/-- The registry without tools. -/
def empty : Registry m := ⟨.empty⟩

/-- The tool with a name. -/
def get? (r : Registry m) (name : String) : Option (Tool m) := r.tools.get? name

/-- Whether there is a tool with a name. -/
def contains (r : Registry m) (name : String) : Bool := r.tools.contains name

/-- The names of the tools, in increasing order. -/
def names (r : Registry m) : List String := r.tools.names

/-- The descriptors of the tools, in the order of their names. -/
def descriptors (r : Registry m) : List ToolDescriptor := r.tools.values.map Tool.descriptor

/-- The number of tools. -/
def size (r : Registry m) : Nat := r.tools.size

/-- Why a tool may not be added to the registry. -/
def fault? (r : Registry m) (t : Tool m) : Option ToolFault :=
  match t.descriptor.fault? with
  | some fault => some fault
  | none => if r.contains t.name then some (.alreadyRegistered t.name) else none

/-- Registers a tool in the registry at hand, unless it is refused. -/
def enrol (t : Tool m) : ExceptT PipelineError (StateM (Registry m)) Unit := do
  match (← get).fault? t with
  | some fault => throw (.invalidTool fault.message)
  | none => modify fun r => ⟨r.tools.insert t.name t⟩

/-- The registry after an attempt to register a tool, whether it was refused or not. -/
def offer (r : Registry m) (t : Tool m) : Registry m := ((enrol t).run.run r).2

/-- The registry with one more tool, unless it is refused. -/
def register (r : Registry m) (t : Tool m) : Except PipelineError (Registry m) :=
  match (enrol t).run.run r with
  | (.error error, _) => .error error
  | (.ok _, next) => .ok next

/-- Registers tools one after the other up to the first that is refused; gives the registry then,
also after a refusal. -/
def registerAll (r : Registry m) : List (Tool m) → Registry m × Option PipelineError
  | [] => (r, none)
  | t :: rest =>
    match (enrol t).run.run r with
    | (.error error, next) => (next, some error)
    | (.ok _, next) => next.registerAll rest

/-- The registry for a reader of diagnostics. -/
def diagnosticText (r : Registry m) : String :=
  Text.recordText "ToolRegistry" [("tools", Text.bracketed (r.names.map Text.quoted))]

end Registry

end ShaderChain
