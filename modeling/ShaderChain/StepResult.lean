import ShaderChain.Artifact
import ShaderChain.Tool.Error

/-!
# Results of steps

A step yields an artifact for the next step, if it has one to give, and outputs
for a reader, in order: listings, reports, error texts. One of the outputs may
be marked as the one to show first.
-/

set_option autoImplicit false

namespace ShaderChain

/-- Whether an output is a regular one or reports an error. -/
inductive OutputKind where
  | output
  | error
deriving DecidableEq, Repr

/-- An output for a reader. -/
structure StepOutput where
  displayName : String
  language : Option String
  value : Payload
  kind : OutputKind
deriving DecidableEq

/-- All that a step produced. -/
structure StepResult where
  pipeable : Option Artifact
  outputs : List StepOutput
  selected : Option UInt64
deriving DecidableEq

namespace OutputKind

/-- The name of the kind. -/
def name : OutputKind → String
  | output => "output"
  | error => "error"

/-- The kind with a name. -/
def ofName? (name : String) : Option OutputKind :=
  if name = "output" then some output else if name = "error" then some error else none

end OutputKind

namespace StepOutput

/-- A text. -/
def text (displayName : String) (language : Option String) (content : String) : StepOutput :=
  ⟨displayName, language, .text content, .output⟩

/-- Bytes. -/
def binary (displayName : String) (language : Option String) (content : Bytes) : StepOutput :=
  ⟨displayName, language, .binary content, .output⟩

/-- A report of an error. -/
def error (diagnostics : String) : StepOutput := ⟨"Errors", none, .text diagnostics, .error⟩

/-- Whether the output reports an error. -/
def isError (o : StepOutput) : Bool := o.kind == .error

/-- The document of an output. -/
def toDocument (o : StepOutput) : Document :=
  .table
    [("display_name", .text o.displayName), ("language", .optionalText o.language),
     ("value", o.value.toDocument), ("kind", .text o.kind.name)]

/-- The fields of an output's document. -/
def fields : List Document.Field :=
  [⟨"display_name", .required⟩, ⟨"language", .nullable⟩, ⟨"value", .required⟩, ⟨"kind", .required⟩]

/-- The output of a document. -/
def ofDocument? (d : Document) : Option StepOutput :=
  match d.record? fields with
  | some [some displayName, some language, some value, some kind] =>
    match displayName.text?, language.optional? Document.text?, Payload.ofDocument? value,
        kind.alternative?.bind OutputKind.ofName? with
    | some displayName, some language, some value, some kind =>
      some ⟨displayName, language, value, kind⟩
    | _, _, _, _ => none
  | _ => none

end StepOutput

namespace StepResult

/-- A result with an artifact for the next step. -/
def forward (pipeable : Artifact) (outputs : List StepOutput) : StepResult :=
  ⟨some pipeable, outputs, none⟩

/-- A result with nothing for a next step. -/
def terminal (outputs : List StepOutput) : StepResult := ⟨none, outputs, none⟩

/-- Marks the output to show first; a position behind the last output is ignored. -/
def select (r : StepResult) (position : UInt64) : StepResult :=
  if position.toNat < r.outputs.length then { r with selected := some position } else r

/-- Whether there is an artifact for a next step. -/
def isPipeable (r : StepResult) : Bool := r.pipeable.isSome

/-- Whether an output reports an error. -/
def hasErrors (r : StepResult) : Bool := r.outputs.any StepOutput.isError

/-- The texts of the outputs that report errors, one per line, if there are any. -/
def errorText? (r : StepResult) : Option String :=
  let texts := (r.outputs.filter StepOutput.isError).filterMap (·.value.asText?)
  if texts.isEmpty then none else some (Text.joined "\n" texts)

/-- The result of a step whose tool failed: nothing for a next step, and the failure as the
output to show. -/
def ofFailure (error : ToolError) : StepResult :=
  (terminal [.error error.message]).select 0

/-- The document of a result. -/
def toDocument (r : StepResult) : Document :=
  .table
    ([("pipeable_output", (r.pipeable.map Artifact.toDocument).getD .null),
      ("outputs", .list (r.outputs.map StepOutput.toDocument))] ++
      (r.selected.map fun position =>
        ("selected_output", Document.int position.toNat)).toList)

/-- The fields of a result's document. -/
def fields : List Document.Field :=
  [⟨"pipeable_output", .nullable⟩, ⟨"outputs", .required⟩, ⟨"selected_output", .defaulted⟩]

/-- The result of a document. -/
def ofDocument? (d : Document) : Option StepResult :=
  match d.record? fields with
  | some [some pipeable, some outputs, selected] =>
    match pipeable.optional? Artifact.ofDocument?, outputs.list? StepOutput.ofDocument?,
        Document.orDefault? none (Document.optional? Document.uint64?) selected with
    | some pipeable, some outputs, some selected => some ⟨pipeable, outputs, selected⟩
    | _, _, _ => none
  | _ => none

end StepResult

end ShaderChain
