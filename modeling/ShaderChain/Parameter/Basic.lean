import ShaderChain.Document.Record
import ShaderChain.Text.Blank
import ShaderChain.Text.Split

/-!
# Parameters

A tool declares parameters: a name, a kind, and a default in raw form. The kind
says which raw texts are values of the parameter and what they mean
(`Parameter.parse`); a text that is none is refused with a reason.
-/

set_option autoImplicit false

namespace ShaderChain

/-- The conventional name of the parameter that selects a tool's output language. -/
def outputLanguageName : String := "OutputLanguage"

/-- Which raw texts a parameter takes: any text; `true` or `false`; an integer, perhaps between
bounds; one of a list of texts; one of a list of languages. -/
inductive ParameterKind where
  | string
  | bool
  | int (min max : Option Int64)
  | choice (allowed : List String)
  | outputLanguage (allowed : List String)
deriving DecidableEq

/-- A parameter of a tool. -/
structure Parameter where
  name : String
  description : String
  kind : ParameterKind
  default : String
deriving DecidableEq

/-- The value of an argument. -/
inductive ArgumentValue where
  | string (value : String)
  | bool (value : Bool)
  | int (value : Int64)
deriving DecidableEq

/-- Why a raw text is no value of a parameter. -/
inductive ParameterFault where
  | notBool
  | notInteger (fault : IntegerFault)
  | below (min : Int64)
  | above (max : Int64)
  | notListed (kindName : String) (allowed : List String)
  /-- A reason of a tool's own, in words. -/
  | other (reason : String)
deriving DecidableEq

/-- A raw text that is no value of its parameter. -/
structure ParameterError where
  name : String
  raw : String
  fault : ParameterFault
deriving DecidableEq

namespace ArgumentValue

/-- The text of a truth value. -/
def boolText (b : Bool) : String := if b then "true" else "false"

/-- The value as text. -/
def display : ArgumentValue → String
  | string value => value
  | bool value => boolText value
  | int value => Integer.text value.toInt

/-- The document of a value. -/
def toDocument : ArgumentValue → Document
  | string value => .text value
  | bool value => .bool value
  | int value => .int value.toInt

/-- The value of a document that is a text, a truth value or a signed 64-bit integer. -/
def ofDocument? : Document → Option ArgumentValue
  | .text value => some (string value)
  | .bool value => some (bool value)
  | .int value => (Document.int value).int64?.map int
  | _ => none

end ArgumentValue

namespace ParameterFault

/-- The reason in words. -/
def message : ParameterFault → String
  | notBool => "expected 'true' or 'false'"
  | notInteger fault => "not an integer: " ++ fault.message
  | below min => "must be at least " ++ Integer.text min.toInt
  | above max => "must be at most " ++ Integer.text max.toInt
  | notListed kindName allowed => kindName ++ " must be one of: " ++ Text.joined ", " allowed
  | other reason => reason

end ParameterFault

namespace ParameterError

/-- The error in words. -/
def message (e : ParameterError) : String :=
  "parameter '" ++ e.name ++ "' has invalid value '" ++ e.raw ++ "': " ++ e.fault.message

end ParameterError

namespace ParameterKind

/-- The texts or languages that a parameter of this kind selects from. -/
def allowed? : ParameterKind → Option (List String)
  | choice allowed => some allowed
  | outputLanguage allowed => some allowed
  | _ => none

/-- The truth value of a raw text, whose case and surrounding blanks do not matter. -/
def parseBool (raw : String) : Except ParameterFault ArgumentValue :=
  let word := Text.lowerAscii (Text.trim raw)
  if word = "true" then .ok (.bool true)
  else if word = "false" then .ok (.bool false)
  else .error .notBool

/-- The integer of a raw text, whose surrounding blanks do not matter, between the bounds. -/
def parseInt (min max : Option Int64) (raw : String) : Except ParameterFault ArgumentValue :=
  match Integer.read (Text.trim raw) with
  | .error fault => .error (.notInteger fault)
  | .ok value =>
    match min.filter (value < ·), max.filter (· < value) with
    | some min, _ => .error (.below min)
    | none, some max => .error (.above max)
    | none, none => .ok (.int value)

/-- A raw text that has to stand in a list as it is. -/
def parseListed (kindName : String) (allowed : List String) (raw : String) :
    Except ParameterFault ArgumentValue :=
  if allowed.contains raw then .ok (.string raw) else .error (.notListed kindName allowed)

/-- The value of a raw text. -/
def parse (kind : ParameterKind) (raw : String) : Except ParameterFault ArgumentValue :=
  match kind with
  | string => .ok (.string raw)
  | bool => parseBool raw
  | int min max => parseInt min max raw
  | choice allowed => parseListed "enum" allowed raw
  | outputLanguage allowed => parseListed "output language" allowed raw

/-- An optional bound as an entry of a table. -/
def boundEntry (name : String) (bound : Option Int64) : List (String × Document) :=
  (bound.map fun value => (name, Document.int value.toInt)).toList

/-- The document of a kind: its name, and what belongs to it. -/
def toDocument : ParameterKind → Document
  | string => .table [("type", .text "string")]
  | bool => .table [("type", .text "bool")]
  | int min max =>
    .table (("type", .text "int") :: (boundEntry "min" min ++ boundEntry "max" max))
  | choice allowed => .table [("type", .text "enum"), ("allowed", .texts allowed)]
  | outputLanguage allowed =>
    .table [("type", .text "output_language"), ("allowed", .texts allowed)]

/-- The kind of a given name with the rest of its document. -/
def ofTagged? (name : String) (rest : Document) : Option ParameterKind :=
  if !rest.isDefined then none
  else if name = "string" then (rest.record? []).map fun _ => string
  else if name = "bool" then (rest.record? []).map fun _ => bool
  else if name = "int" then
    match rest.record? [⟨"min", .defaulted⟩, ⟨"max", .defaulted⟩] with
    | some [min, max] =>
      match Document.orDefault? none (Document.optional? Document.int64?) min,
          Document.orDefault? none (Document.optional? Document.int64?) max with
      | some min, some max => some (int min max)
      | _, _ => none
    | _ => none
  else
    match rest.record? [⟨"allowed", .required⟩] with
    | some [some allowed] =>
      (Document.list? Document.text? allowed).bind fun allowed =>
        if name = "enum" then some (choice allowed)
        else if name = "output_language" then some (outputLanguage allowed)
        else none
    | _ => none

/-- The kind of a document. Its name stands under `type`, or first in a list. -/
def ofDocument? : Document → Option ParameterKind
  | .table entries =>
    match Document.valuesOf "type" entries with
    | [.text name] => ofTagged? name (.table (entries.filter fun entry => entry.1 != "type"))
    | _ => none
  | .list (.text name :: rest) => ofTagged? name (.list rest)
  | _ => none

end ParameterKind

namespace Parameter

/-- A parameter that takes any text. -/
def string (name default : String) : Parameter := ⟨name, "", .string, default⟩

/-- A flag. -/
def boolean (name : String) (default : Bool) : Parameter :=
  ⟨name, "", .bool, ArgumentValue.boolText default⟩

/-- An integer without bounds. -/
def integer (name : String) (default : Int64) : Parameter :=
  ⟨name, "", .int none none, Integer.text default.toInt⟩

/-- An integer between two bounds. -/
def integerIn (name : String) (min max default : Int64) : Parameter :=
  ⟨name, "", .int (some min) (some max), Integer.text default.toInt⟩

/-- One of a list of texts. -/
def choice (name : String) (allowed : List String) (default : String) : Parameter :=
  ⟨name, "", .choice allowed, default⟩

/-- The selector of the output language. -/
def outputLanguage (allowed : List String) (default : String) : Parameter :=
  ⟨outputLanguageName, "Language of the pipeable output", .outputLanguage allowed, default⟩

/-- The parameter with another description. -/
def describedAs (p : Parameter) (description : String) : Parameter :=
  { p with description := description }

/-- The value of a raw text. -/
def parse (p : Parameter) (raw : String) : Except ParameterError ArgumentValue :=
  (p.kind.parse raw).mapError fun fault => ⟨p.name, raw, fault⟩

/-- The languages that the parameter selects from, if it selects the output language. -/
def outputLanguages? (p : Parameter) : Option (List String) :=
  match p.kind with
  | .outputLanguage allowed => some allowed
  | _ => none

/-- The document of a parameter. -/
def toDocument (p : Parameter) : Document :=
  .table
    [("name", .text p.name), ("description", .text p.description), ("kind", p.kind.toDocument),
     ("default", .text p.default)]

/-- The fields of a parameter's document. -/
def fields : List Document.Field :=
  [⟨"name", .required⟩, ⟨"description", .defaulted⟩, ⟨"kind", .required⟩, ⟨"default", .required⟩]

/-- The parameter of a document. -/
def ofDocument? (d : Document) : Option Parameter :=
  match d.record? fields with
  | some [some name, description, some kind, some default] =>
    match name.text?, Document.orDefault? "" Document.text? description,
        ParameterKind.ofDocument? kind, default.text? with
    | some name, some description, some kind, some default =>
      some ⟨name, description, kind, default⟩
    | _, _, _, _ => none
  | _ => none

end Parameter

end ShaderChain
