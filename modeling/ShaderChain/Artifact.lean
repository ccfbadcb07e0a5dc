import ShaderChain.Document.Record
import ShaderChain.Text.Base64

/-!
# Artifacts

What flows from one step of a pipeline to the next: a payload, text or bytes,
with the tag of its language. In a document the bytes of a payload stand in
Base64.
-/

set_option autoImplicit false

namespace ShaderChain

/-- Text or bytes. -/
inductive Payload where
  | text (content : String)
  | binary (content : Bytes)
deriving DecidableEq

namespace Payload

/-- The name of the representation. -/
def kindName : Payload → String
  | text _ => "text"
  | binary _ => "binary"

/-- The text of a payload that is text. -/
def asText? : Payload → Option String
  | text content => some content
  | binary _ => none

/-- The bytes of the payload; for text, its encoding. -/
def bytes : Payload → Bytes
  | text content => Text.encode content
  | binary content => content

/-- The number of bytes. -/
def size (p : Payload) : Nat := p.bytes.length

/-- The document of a payload: its representation and its content. -/
def toDocument : Payload → Document
  | text content => .table [("code_type", .text "text"), ("value", .text content)]
  | binary content =>
    .table [("code_type", .text "binary"), ("value", .text (Text.Base64.encode content))]

/-- The payload with a given representation and content. -/
def ofParts? (kind : String) (value : Document) : Option Payload :=
  if kind = "text" then value.text?.map text
  else if kind = "binary" then (value.text?.bind Text.Base64.decode?).map binary
  else none

/-- The fields of a payload's document. -/
def fields : List Document.Field := [⟨"code_type", .required⟩, ⟨"value", .required⟩]

/-- The payload of a document. -/
def ofDocument? (d : Document) : Option Payload :=
  match d.record? fields with
  | some [some kind, some value] => kind.alternative?.bind fun kind => ofParts? kind value
  | _ => none

end Payload

/-- A payload in a language. -/
structure Artifact where
  language : String
  payload : Payload
deriving DecidableEq

namespace Artifact

/-- A text in a language. -/
def text (language content : String) : Artifact := ⟨language, .text content⟩

/-- Bytes in a language. -/
def binary (language : String) (content : Bytes) : Artifact := ⟨language, .binary content⟩

/-- The document of an artifact. -/
def toDocument (a : Artifact) : Document :=
  .table [("language", .text a.language), ("payload", a.payload.toDocument)]

/-- The fields of an artifact's document. -/
def fields : List Document.Field := [⟨"language", .required⟩, ⟨"payload", .required⟩]

/-- The artifact of a document. -/
def ofDocument? (d : Document) : Option Artifact :=
  match d.record? fields with
  | some [some language, some payload] =>
    match language.text?, Payload.ofDocument? payload with
    | some language, some payload => some ⟨language, payload⟩
    | _, _ => none
  | _ => none

end Artifact

end ShaderChain
