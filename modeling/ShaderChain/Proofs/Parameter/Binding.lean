import Mathlib.Data.List.Forall2
import ShaderChain.Parameter.Binding

/-!
# What bound arguments hold

Binding succeeds exactly when every parameter takes its raw value, and the bound
arguments are then the values of the parameters in the order of the schema
(`bind_eq_ok_iff`). If no two parameters have one name, a look-up finds the
value of each parameter (`get?_of_bind`), and that value is one that the kind of
the parameter admits (`ParameterKind.admits_of_parse`).

Arguments with this property fit the schema (`BoundArguments.Fits`). What reads
fitting arguments by the name and the type of a parameter never fails.
-/

set_option autoImplicit false

namespace ShaderChain

/-! ## Binding, parameter by parameter -/

/-- An entry of bound arguments that is the value of a parameter. -/
structure Parameter.Bound (raw : Table String) (p : Parameter) (entry : String × ArgumentValue) :
    Prop where
  name : entry.1 = p.name
  value : p.parse (p.rawValue raw) = .ok entry.2

theorem bindValues_eq_ok_iff {raw : Table String} {schema : List Parameter}
    {values : List (String × ArgumentValue)} :
    bindValues raw schema = .ok values ↔ List.Forall₂ (Parameter.Bound raw) schema values := by
  induction schema generalizing values with
  | nil =>
    rw [List.forall₂_nil_left_iff, bindValues, Except.ok.injEq]
    exact eq_comm
  | cons p rest ih =>
    rw [List.forall₂_cons_left_iff, bindValues]
    constructor
    · intro bound
      cases parsed : p.parse (p.rawValue raw) with
      | error error => rw [parsed] at bound; cases bound
      | ok value =>
        rw [parsed] at bound
        cases tail : bindValues raw rest with
        | error error => rw [tail] at bound; cases bound
        | ok entries =>
          rw [tail] at bound
          cases bound
          exact ⟨(p.name, value), entries, ⟨rfl, parsed⟩, ih.1 tail, rfl⟩
    · rintro ⟨⟨name, value⟩, entries, ⟨named, parsed⟩, tail, rfl⟩
      cases named
      rw [parsed, ih.2 tail]
      rfl

/-- **Bound arguments are the values of the parameters, in the order of the schema.** -/
theorem bind_eq_ok_iff {raw : Table String} {schema : List Parameter} {args : BoundArguments} :
    bind schema raw = .ok args ↔ List.Forall₂ (Parameter.Bound raw) schema args.values := by
  rw [← bindValues_eq_ok_iff, bind]
  obtain ⟨values⟩ := args
  cases bindValues raw schema with
  | error error =>
    constructor
    · intro bound
      cases bound
    · intro bound
      cases bound
  | ok entries =>
    constructor
    · intro bound
      cases bound
      rfl
    · intro bound
      cases bound
      rfl

/-- Binding succeeds exactly when every parameter takes its raw value. -/
theorem exists_bind_iff {raw : Table String} {schema : List Parameter} :
    (∃ args, bind schema raw = .ok args) ↔
      ∀ p ∈ schema, ∃ value, p.parse (p.rawValue raw) = .ok value := by
  simp only [bind_eq_ok_iff]
  induction schema with
  | nil => exact ⟨fun _ _ member => (List.not_mem_nil member).elim, fun _ => ⟨.empty, .nil⟩⟩
  | cons p rest ih =>
    constructor
    · rintro ⟨⟨values⟩, bound⟩ q member
      cases bound with
      | cons head tail =>
        rcases List.mem_cons.1 member with rfl | later
        · exact ⟨_, head.value⟩
        · exact ih.1 ⟨⟨_⟩, tail⟩ q later
    · intro parses
      obtain ⟨value, parsed⟩ := parses p List.mem_cons_self
      obtain ⟨args, tail⟩ := ih.2 fun q member => parses q (List.mem_cons_of_mem _ member)
      exact ⟨⟨(p.name, value) :: args.values⟩, .cons ⟨rfl, parsed⟩ tail⟩

/-! ## Looking up a parameter -/

/-- Among entries with the distinct names of a schema, a look-up finds each parameter's value. -/
theorem lookup_of_bound {raw : Table String} {schema : List Parameter}
    {values : List (String × ArgumentValue)} {p : Parameter}
    (bound : List.Forall₂ (Parameter.Bound raw) schema values)
    (distinct : (schema.map Parameter.name).Nodup) (member : p ∈ schema) :
    ∃ value, values.lookup p.name = some value ∧ p.parse (p.rawValue raw) = .ok value := by
  induction bound with
  | nil => cases member
  | @cons first entry rest entries head _ ih =>
    obtain ⟨name, value⟩ := entry
    obtain ⟨named, parsed⟩ := head
    cases named
    rw [List.map_cons, List.nodup_cons] at distinct
    rcases List.mem_cons.1 member with rfl | later
    · exact ⟨value, List.lookup_cons_self, parsed⟩
    · have other : p.name ≠ first.name := fun same =>
        distinct.1 (same ▸ List.mem_map_of_mem later)
      obtain ⟨found, isFound, holds⟩ := ih distinct.2 later
      refine ⟨found, ?_, holds⟩
      rw [List.lookup_cons, beq_false_of_ne other]
      exact isFound

/-- **A look-up finds the value of each parameter** of a schema whose names are distinct. -/
theorem get?_of_bind {raw : Table String} {schema : List Parameter} {args : BoundArguments}
    {p : Parameter} (bound : bind schema raw = .ok args)
    (distinct : (schema.map Parameter.name).Nodup) (member : p ∈ schema) :
    ∃ value, args.get? p.name = some value ∧ p.parse (p.rawValue raw) = .ok value :=
  lookup_of_bound (bind_eq_ok_iff.1 bound) distinct member

/-! ## The values that a kind admits -/

/-- The values of a kind: of the right type, between the bounds, in the list. -/
def ParameterKind.Admits : ParameterKind → ArgumentValue → Prop
  | .string, .string _ => True
  | .bool, .bool _ => True
  | .int min max, .int value => (∀ b ∈ min, b ≤ value) ∧ ∀ b ∈ max, value ≤ b
  | .choice allowed, .string value => value ∈ allowed
  | .outputLanguage allowed, .string value => value ∈ allowed
  | _, _ => False

/-- The types that values of arguments have. -/
inductive ValueType where
  | text
  | truth
  | integer
deriving DecidableEq

/-- The type of the values of a kind. -/
def ParameterKind.type : ParameterKind → ValueType
  | .string | .choice _ | .outputLanguage _ => .text
  | .bool => .truth
  | .int _ _ => .integer

/-- The type of a value. -/
def ArgumentValue.type : ArgumentValue → ValueType
  | .string _ => .text
  | .bool _ => .truth
  | .int _ => .integer

namespace ParameterKind

theorem admits_of_parseListed {kindName raw : String} {allowed : List String}
    {value : ArgumentValue} (parsed : parseListed kindName allowed raw = .ok value) :
    value = .string raw ∧ raw ∈ allowed := by
  unfold parseListed at parsed
  split at parsed
  · rename_i listed
    cases parsed
    exact ⟨rfl, List.contains_iff_mem.1 listed⟩
  · cases parsed

theorem bool_of_parseBool {raw : String} {value : ArgumentValue}
    (parsed : parseBool raw = .ok value) : ∃ b, value = .bool b := by
  unfold parseBool at parsed
  dsimp only at parsed
  split at parsed
  · exact ⟨true, (Except.ok.inj parsed).symm⟩
  · split at parsed
    · exact ⟨false, (Except.ok.inj parsed).symm⟩
    · cases parsed

theorem int_of_parseInt {raw : String} {min max : Option Int64} {value : ArgumentValue}
    (parsed : parseInt min max raw = .ok value) :
    ∃ v, value = .int v ∧ (∀ b ∈ min, b ≤ v) ∧ ∀ b ∈ max, v ≤ b := by
  unfold parseInt at parsed
  cases read : Integer.read (Text.trim raw) with
  | error fault => rw [read] at parsed; cases parsed
  | ok v =>
    rw [read] at parsed
    dsimp only at parsed
    split at parsed
    · cases parsed
    · cases parsed
    · rename_i low high
      refine ⟨v, (Except.ok.inj parsed).symm, ?_, ?_⟩
      · intro b isMin
        have notLess := Option.filter_eq_none_iff.1 low b isMin
        simpa using notLess
      · intro b isMax
        have notLess := Option.filter_eq_none_iff.1 high b isMax
        simpa using notLess

/-- **Parsing gives only values that the kind admits.** -/
theorem admits_of_parse {kind : ParameterKind} {raw : String} {value : ArgumentValue}
    (parsed : kind.parse raw = .ok value) : kind.Admits value := by
  cases kind with
  | string =>
    cases parsed
    exact True.intro
  | bool =>
    rw [parse] at parsed
    obtain ⟨b, rfl⟩ := bool_of_parseBool parsed
    exact True.intro
  | int min max =>
    rw [parse] at parsed
    obtain ⟨v, rfl, low, high⟩ := int_of_parseInt parsed
    exact ⟨low, high⟩
  | choice allowed =>
    rw [parse] at parsed
    obtain ⟨rfl, listed⟩ := admits_of_parseListed parsed
    exact listed
  | outputLanguage allowed =>
    rw [parse] at parsed
    obtain ⟨rfl, listed⟩ := admits_of_parseListed parsed
    exact listed

/-- An admitted value has the type of the kind. -/
theorem Admits.type_eq {kind : ParameterKind} {value : ArgumentValue}
    (admitted : kind.Admits value) : value.type = kind.type := by
  cases kind <;> cases value <;> first | rfl | exact admitted.elim

end ParameterKind

theorem Parameter.admits_of_parse {p : Parameter} {raw : String} {value : ArgumentValue}
    (parsed : p.parse raw = .ok value) : p.kind.Admits value := by
  unfold Parameter.parse at parsed
  cases result : p.kind.parse raw with
  | error fault => rw [result] at parsed; cases parsed
  | ok found =>
    rw [result] at parsed
    cases parsed
    exact ParameterKind.admits_of_parse result

/-! ## Reading that does not fail -/

/-- A computation without effects that does not fail. -/
def Gives {α : Type} (x : Except ToolError α) : Prop := ∃ a, x = .ok a

namespace Gives

variable {α β : Type}

theorem pure (a : α) : Gives (Pure.pure a) := ⟨a, rfl⟩

theorem bind {x : Except ToolError α} {f : α → Except ToolError β} (first : Gives x)
    (next : ∀ a, x = .ok a → Gives (f a)) : Gives (x >>= f) := by
  obtain ⟨a, rfl⟩ := first
  exact next a rfl

theorem map {x : Except ToolError α} (gives : Gives x) (f : α → β) : Gives (x.map f) := by
  obtain ⟨a, rfl⟩ := gives
  exact ⟨f a, rfl⟩

theorem ite {c : Prop} [Decidable c] {x y : Except ToolError α} (yes : Gives x) (no : Gives y) :
    Gives (if c then x else y) := by
  split
  · exact yes
  · exact no

end Gives

/-! ## Arguments that fit a schema -/

/-- A schema with a parameter of a name whose values have a type. -/
def Declares (schema : List Parameter) (name : String) (type : ValueType) : Prop :=
  ∃ p ∈ schema, p.name = name ∧ p.kind.type = type

instance (schema : List Parameter) (name : String) (type : ValueType) :
    Decidable (Declares schema name type) :=
  inferInstanceAs (Decidable (∃ p ∈ schema, p.name = name ∧ p.kind.type = type))

namespace BoundArguments

/-- Arguments that hold for every parameter of a schema a value that its kind admits. -/
def Fits (args : BoundArguments) (schema : List Parameter) : Prop :=
  ∀ p ∈ schema, ∃ value, args.get? p.name = some value ∧ p.kind.Admits value

/-- Arguments bound against a schema with distinct names fit it. -/
theorem fits_of_bind {raw : Table String} {schema : List Parameter} {args : BoundArguments}
    (bound : bind schema raw = .ok args) (distinct : (schema.map Parameter.name).Nodup) :
    args.Fits schema := by
  intro p member
  obtain ⟨value, found, parsed⟩ := get?_of_bind bound distinct member
  exact ⟨value, found, Parameter.admits_of_parse parsed⟩

namespace Fits

variable {args : BoundArguments} {schema more : List Parameter} {name : String}

/-- Arguments that fit a schema fit its beginning. -/
theorem left (fits : args.Fits (schema ++ more)) : args.Fits schema :=
  fun p member => fits p (List.mem_append_left _ member)

/-- A declared argument is there, with the declared type. -/
theorem get? {type : ValueType} (fits : args.Fits schema)
    (declared : Declares schema name type) :
    ∃ value, args.get? name = some value ∧ value.type = type := by
  obtain ⟨p, member, rfl, rfl⟩ := declared
  obtain ⟨value, found, admitted⟩ := fits p member
  exact ⟨value, found, admitted.type_eq⟩

/-- A text argument can be read as a text. -/
theorem string (fits : args.Fits schema) (declared : Declares schema name .text) :
    Gives (args.string name) := by
  obtain ⟨value, found, typed⟩ := fits.get? declared
  cases value with
  | string value => exact ⟨value, by simp only [BoundArguments.string, BoundArguments.typed, found]⟩
  | bool value => cases typed
  | int value => cases typed

/-- A truth value can be read as one. -/
theorem boolean (fits : args.Fits schema) (declared : Declares schema name .truth) :
    Gives (args.boolean name) := by
  obtain ⟨value, found, typed⟩ := fits.get? declared
  cases value with
  | bool value =>
    exact ⟨value, by simp only [BoundArguments.boolean, BoundArguments.typed, found]⟩
  | string value => cases typed
  | int value => cases typed

/-- An integer argument can be read as an integer. -/
theorem integer (fits : args.Fits schema) (declared : Declares schema name .integer) :
    Gives (args.integer name) := by
  obtain ⟨value, found, typed⟩ := fits.get? declared
  cases value with
  | int value =>
    exact ⟨value, by simp only [BoundArguments.integer, BoundArguments.typed, found]⟩
  | string value => cases typed
  | bool value => cases typed

/-- The selected output language is one of those to select from. -/
theorem mem_of_selected (fits : args.Fits schema) {allowed : List String} {default language : String}
    (member : Parameter.outputLanguage allowed default ∈ schema)
    (selected : args.string outputLanguageName = .ok language) : language ∈ allowed := by
  obtain ⟨value, found, admitted⟩ := fits _ member
  have found : args.get? outputLanguageName = some value := found
  cases value with
  | string value =>
    simp only [BoundArguments.string, BoundArguments.typed, found] at selected
    cases selected
    exact admitted
  | bool value => exact admitted.elim
  | int value => exact admitted.elim

end Fits

end BoundArguments

end ShaderChain
