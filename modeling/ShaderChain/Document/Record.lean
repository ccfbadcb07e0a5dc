import ShaderChain.Document.Basic
import ShaderChain.Number.Integer
import ShaderChain.Table

/-!
# Reading values out of documents

Readers for the scalars, for lists and name-value tables, and for records.

A record is written as a table of its fields, in any order, among fields of
other names that do not count; or as a list of its fields in declaration order,
where fields with a default may be left out at the end. A field may stand once
only. Whether it may be absent is its `Presence`.
-/

set_option autoImplicit false

namespace ShaderChain.Document

/-- A truth value. -/
def bool? : Document → Option Bool
  | bool value => some value
  | _ => none

/-- A text. -/
def text? : Document → Option String
  | text value => some value
  | _ => none

/-- An integer between two bounds. -/
def intWithin? (low high : Int) : Document → Option Int
  | int value => if low ≤ value && value ≤ high then some value else none
  | _ => none

/-- A signed 64-bit integer. -/
def int64? (d : Document) : Option Int64 :=
  (d.intWithin? Integer.least Integer.greatest).map Int64.ofInt

/-- An unsigned 64-bit integer. -/
def uint64? (d : Document) : Option UInt64 :=
  (d.intWithin? 0 Integer.greatestUnsigned).map fun value => UInt64.ofNat value.toNat

variable {α : Type}

/-- What `read` makes of each item. -/
def readAll? (read : Document → Option α) : List Document → Option (List α)
  | [] => some []
  | item :: rest =>
    match read item with
    | none => none
    | some value => (readAll? read rest).map (value :: ·)

/-- A list of what `read` reads. -/
def list? (read : Document → Option α) : Document → Option (List α)
  | list items => readAll? read items
  | _ => none

/-- What `read` makes of the value of each entry. -/
def readEntries? (read : Document → Option α) :
    List (String × Document) → Option (List (String × α))
  | [] => some []
  | entry :: rest =>
    match read entry.2 with
    | none => none
    | some value => (readEntries? read rest).map ((entry.1, value) :: ·)

/-- A table of what `read` reads; the last value of a repeated name counts. -/
def table? (read : Document → Option α) : Document → Option (Table α)
  | table entries => (readEntries? read entries).map Table.ofList
  | _ => none

/-- What `read` reads, or nothing where `null` is written. -/
def optional? (read : Document → Option α) : Document → Option (Option α)
  | null => some none
  | d => (read d).map some

/-- Whether a field of a record may be left out: never, in a table only (where it counts as
`null`), or always. -/
inductive Presence where
  | required
  | nullable
  | defaulted
deriving DecidableEq, Repr

/-- A field of a record: its name and whether it may be left out. -/
structure Field where
  name : String
  presence : Presence
deriving DecidableEq, Repr

/-- The values written under `name`. -/
def valuesOf (name : String) (entries : List (String × Document)) : List Document :=
  (entries.filter fun entry => entry.1 == name).map Prod.snd

/-- The value of a field in a table: `none` if the table does not make up the field, and
`some none` if it leaves it to its default. -/
def fieldInTable? (entries : List (String × Document)) (field : Field) :
    Option (Option Document) :=
  match valuesOf field.name entries, field.presence with
  | [value], _ => some (some value)
  | [], .nullable => some (some null)
  | [], .defaulted => some none
  | _, _ => none

/-- The values of the fields in a table, in the order of `fields`. -/
def fieldsInTable? (entries : List (String × Document)) :
    List Field → Option (List (Option Document))
  | [] => some []
  | field :: rest =>
    match fieldInTable? entries field with
    | none => none
    | some value => (fieldsInTable? entries rest).map (value :: ·)

/-- The values of the fields in a list, by position. -/
def fieldsInList? : List Document → List Field → Option (List (Option Document))
  | [], [] => some []
  | _ :: _, [] => none
  | item :: items, _ :: fields => (fieldsInList? items fields).map (some item :: ·)
  | [], field :: fields =>
    if field.presence = .defaulted then (fieldsInList? [] fields).map (none :: ·) else none

/-- The values of a record's fields, `none` for one that is left to its default. -/
def record? (fields : List Field) : Document → Option (List (Option Document))
  | table entries => fieldsInTable? entries fields
  | list items => fieldsInList? items fields
  | _ => none

/-- The value read from a field, or its default where the field is left out. -/
def orDefault? (default : α) (read : Document → Option α) : Option Document → Option α
  | none => some default
  | some d => read d

/-- The name of one of several alternatives without content: a text, or a table whose only
entry has that name and the value `null`. -/
def alternative? : Document → Option String
  | text name => some name
  | table [(name, null)] => some name
  | _ => none

end ShaderChain.Document
