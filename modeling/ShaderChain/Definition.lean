import ShaderChain.Machine.Path
import ShaderChain.Machine.IoError
import ShaderChain.Pipeline.Error
import ShaderChain.Pipeline.Step
import ShaderChain.Text.Blank
import ShaderChain.Toml.Reader
import ShaderChain.Toml.Writer

/-!
# Pipeline definitions

A named list of steps for repeated use, perhaps with the language its input has.
A definition is written in TOML, under the table `pipeline`
(`Definition.write`, `Definition.read`), and is valid if it has a name and steps
and each step names a tool; the tools themselves are looked up when the pipeline
is planned.
-/

set_option autoImplicit false

namespace ShaderChain

/-- A named list of steps. -/
structure Definition where
  name : String
  description : String
  language : Option String
  steps : List Step
deriving DecidableEq

/-- Why a definition cannot be used. -/
inductive DefinitionFault where
  | unreadable (path : Path) (cause : IoError)
  | malformed
  | noName
  | noSteps
  | noTool (step : Nat)
  | noLanguage
deriving DecidableEq

namespace DefinitionFault

/-- The fault in words. -/
def message : DefinitionFault → String
  | unreadable path cause => "Failed to read " ++ path.text ++ ": " ++ cause.message
  | malformed => "TOML parse error: not a pipeline definition"
  | noName => "Pipeline name cannot be empty"
  | noSteps => "Pipeline must have at least one step"
  | noTool step => "Step " ++ Integer.naturalText step ++ " has no tool"
  | noLanguage => "Pipeline language cannot be empty"

/-- The fault as an error of pipelines. -/
def toError (f : DefinitionFault) : PipelineError := .invalidDefinition f.message

end DefinitionFault

namespace Definition

/-- The position of the first step without a tool, counted from `index`. -/
def firstWithoutTool (index : Nat) : List Step → Option Nat
  | [] => none
  | step :: rest =>
    if Text.isBlankText step.tool then some index else firstWithoutTool (index + 1) rest

/-- The first fault of a definition. -/
def fault? (d : Definition) : Option DefinitionFault :=
  if Text.isBlankText d.name then some .noName
  else if d.steps.isEmpty then some .noSteps
  else
    match firstWithoutTool 0 d.steps with
    | some step => some (.noTool step)
    | none => if d.language.any Text.isBlankText then some .noLanguage else none

/-- The document of a definition. -/
def toDocument (d : Definition) : Document :=
  .table
    ([("name", .text d.name), ("description", .text d.description)] ++
      (d.language.map fun language => ("language", Document.text language)).toList ++
      [("steps", .list (d.steps.map Step.toDocument))])

/-- The fields of a definition's document. -/
def fields : List Document.Field :=
  [⟨"name", .required⟩, ⟨"description", .defaulted⟩, ⟨"language", .defaulted⟩,
   ⟨"steps", .required⟩]

/-- The definition of a document. -/
def ofDocument? (d : Document) : Option Definition :=
  match d.record? fields with
  | some [some name, description, language, some steps] =>
    match name.text?, Document.orDefault? "" Document.text? description,
        Document.orDefault? none (Document.optional? Document.text?) language,
        steps.list? Step.ofDocument? with
    | some name, some description, some language, some steps =>
      some ⟨name, description, language, steps⟩
    | _, _, _, _ => none
  | _ => none

/-- The document of a file that holds the definition. -/
def toFileDocument (d : Definition) : Document := .table [("pipeline", d.toDocument)]

/-- The definition that a file's document holds. -/
def ofFileDocument? (d : Document) : Option Definition :=
  match d.record? [⟨"pipeline", .required⟩] with
  | some [some pipeline] => ofDocument? pipeline
  | _ => none

/-- The definition as TOML. -/
def write (d : Definition) : String := Toml.write d.toFileDocument

/-- The definition that a TOML text holds. -/
def read (text : String) : Except DefinitionFault Definition :=
  match (Toml.read? text).bind ofFileDocument? with
  | some d => .ok d
  | none => .error .malformed

end Definition

end ShaderChain
