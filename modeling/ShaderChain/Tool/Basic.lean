import ShaderChain.Parameter.Binding
import ShaderChain.StepResult

/-!
# Tools

A tool is described by its name, the languages it takes and emits, and its
parameters; it compiles an artifact, given bound arguments, to the result of a
step or to a failure.

What compiling does besides is left open: a tool lives in a monad `m`. A tool
whose answer depends on nothing but its input lives in `Id`, one that runs
programs and remembers earlier calls in a state monad.
-/

set_option autoImplicit false

namespace ShaderChain

/-- What a tool can do. -/
structure ToolDescriptor where
  name : String
  displayName : String
  description : String
  inputLanguages : List String
  outputLanguages : List String
  parameters : List Parameter
deriving DecidableEq

namespace ToolDescriptor

/-- Whether the tool takes input in a language. -/
def accepts (d : ToolDescriptor) (language : String) : Bool := d.inputLanguages.contains language

/-- Whether the tool never has an artifact for a next step. -/
def isTerminal (d : ToolDescriptor) : Bool := d.outputLanguages.isEmpty

/-- The value of the first parameter that selects the output language, if it is bound to a
text. -/
def selectedLanguage? (d : ToolDescriptor) (args : BoundArguments) : Option String :=
  (d.parameters.find? (·.outputLanguages?.isSome)).bind fun p => (args.string p.name).toOption

/-- The languages that the tool may emit with the given arguments: the selected one, or all. -/
def predictedLanguages (d : ToolDescriptor) (args : BoundArguments) : List String :=
  match d.selectedLanguage? args with
  | some language => [language]
  | none => d.outputLanguages

/-- The descriptor with one more parameter. -/
def withParameter (d : ToolDescriptor) (p : Parameter) : ToolDescriptor :=
  { d with parameters := d.parameters ++ [p] }

/-- The document of a descriptor. -/
def toDocument (d : ToolDescriptor) : Document :=
  .table
    [("name", .text d.name), ("display_name", .text d.displayName),
     ("description", .text d.description),
     ("input_languages", .texts d.inputLanguages),
     ("output_languages", .texts d.outputLanguages),
     ("parameters", .list (d.parameters.map Parameter.toDocument))]

/-- The fields of a descriptor's document. -/
def fields : List Document.Field :=
  [⟨"name", .required⟩, ⟨"display_name", .required⟩, ⟨"description", .defaulted⟩,
   ⟨"input_languages", .required⟩, ⟨"output_languages", .defaulted⟩, ⟨"parameters", .defaulted⟩]

/-- The descriptor of a document. -/
def ofDocument? (d : Document) : Option ToolDescriptor :=
  match d.record? fields with
  | some [some name, some displayName, description, some inputs, outputs, parameters] =>
    match name.text?, displayName.text?, Document.orDefault? "" Document.text? description,
        inputs.list? Document.text?,
        Document.orDefault? [] (Document.list? Document.text?) outputs,
        Document.orDefault? [] (Document.list? Parameter.ofDocument?) parameters with
    | some name, some displayName, some description, some inputs, some outputs,
        some parameters =>
      some ⟨name, displayName, description, inputs, outputs, parameters⟩
    | _, _, _, _, _, _ => none
  | _ => none

end ToolDescriptor

/-- A tool whose compiling has effects in `m`. -/
structure Tool (m : Type → Type) where
  descriptor : ToolDescriptor
  compile : Artifact → BoundArguments → m (Except ToolError StepResult)

namespace Tool

variable {m : Type → Type}

/-- The name of the tool. -/
def name (t : Tool m) : String := t.descriptor.name

/-- Runs the tool as a step: a failure becomes a result that reports it. -/
def execute [Monad m] (t : Tool m) (input : Artifact) (args : BoundArguments) : m StepResult := do
  match ← t.compile input args with
  | .ok result => return result
  | .error error => return .ofFailure error

end Tool

end ShaderChain
