import ShaderChain.Proofs.Parameter.Binding

/-!
# Exactly what binding does

Binding looks at the parameters of a schema one after the other and stops at the
first whose raw value is refused. Its failure is therefore the refusal of that
parameter (`bind_eq_error_iff`), and nothing of the raw arguments matters but
the values under the names of the schema (`bind_eq_of_same`).

When the names are distinct, the arguments that were bound tell everything about
the schema again: under the name of a parameter stands its value, which can be
read with the type of the parameter's kind and with no other
(`BoundArguments.Reads`), and under any other name there is nothing
(`BoundArguments.Lacks`). `binding_exact` puts these together.
-/

set_option autoImplicit false

namespace ShaderChain

/-! ## The first refusal -/

/-- The parameter takes its raw value. -/
def Parameter.Takes (raw : Table String) (p : Parameter) : Prop :=
  ∃ value, p.parse (p.rawValue raw) = .ok value

/-- The first parameter of a schema that refuses its raw value, and its refusal. -/
def FirstRefusal (raw : Table String) (schema : List Parameter) (error : ParameterError) : Prop :=
  ∃ before p after, schema = before ++ p :: after ∧ (∀ q ∈ before, q.Takes raw) ∧
    p.parse (p.rawValue raw) = .error error

namespace FirstRefusal

variable {raw : Table String} {p : Parameter} {rest : List Parameter} {error : ParameterError}

/-- A parameter that refuses its raw value is the first to do so if it stands first. -/
theorem of_head {refusal : ParameterError} (refuses : p.parse (p.rawValue raw) = .error refusal) :
    FirstRefusal raw (p :: rest) error ↔ refusal = error := by
  constructor
  · rintro ⟨before, q, after, same, takes, isFirst⟩
    cases before with
    | nil =>
      cases same
      exact Except.error.inj (refuses.symm.trans isFirst)
    | cons first before =>
      cases same
      obtain ⟨value, parsed⟩ := takes p List.mem_cons_self
      rw [refuses] at parsed
      cases parsed
  · rintro rfl
    exact ⟨[], p, rest, rfl, List.forall_mem_nil _, refuses⟩

/-- A parameter that takes its raw value is passed over. -/
theorem of_tail {value : ArgumentValue} (parsed : p.parse (p.rawValue raw) = .ok value) :
    FirstRefusal raw (p :: rest) error ↔ FirstRefusal raw rest error := by
  constructor
  · rintro ⟨before, q, after, same, takes, isFirst⟩
    cases before with
    | nil =>
      cases same
      rw [parsed] at isFirst
      cases isFirst
    | cons first before =>
      cases same
      exact ⟨before, q, after, rfl, fun s member => takes s (List.mem_cons_of_mem _ member), isFirst⟩
  · rintro ⟨before, q, after, rfl, takes, isFirst⟩
    exact ⟨p :: before, q, after, rfl, List.forall_mem_cons.2 ⟨⟨value, parsed⟩, takes⟩, isFirst⟩

end FirstRefusal

theorem bindValues_eq_error_iff {raw : Table String} {schema : List Parameter}
    {error : ParameterError} :
    bindValues raw schema = .error error ↔ FirstRefusal raw schema error := by
  induction schema with
  | nil =>
    constructor
    · intro failed
      cases failed
    · rintro ⟨before, p, after, same, _⟩
      cases before <;> cases same
  | cons p rest ih =>
    rw [bindValues]
    cases parsed : p.parse (p.rawValue raw) with
    | error refusal => rw [FirstRefusal.of_head parsed, Except.error.injEq]
    | ok value =>
      rw [FirstRefusal.of_tail parsed, ← ih]
      cases bindValues raw rest with
      | error refusal => rfl
      | ok values =>
        constructor
        · intro isError
          cases isError
        · intro isError
          cases isError

/-- **Binding fails with the refusal of the first parameter** that does not take its raw value. -/
theorem bind_eq_error_iff {raw : Table String} {schema : List Parameter} {error : ParameterError} :
    bind schema raw = .error error ↔ FirstRefusal raw schema error := by
  rw [← bindValues_eq_error_iff, bind]
  cases bindValues raw schema with
  | error refusal => simp only [Except.map, Except.error.injEq]
  | ok values =>
    constructor
    · intro isError
      cases isError
    · intro isError
      cases isError

/-! ## What of the raw arguments matters -/

theorem Parameter.rawValue_congr {raw other : Table String} {p : Parameter}
    (same : other.get? p.name = raw.get? p.name) : p.rawValue other = p.rawValue raw := by
  rw [rawValue, rawValue, same]

theorem bindValues_congr {raw other : Table String} {schema : List Parameter}
    (same : ∀ p ∈ schema, other.get? p.name = raw.get? p.name) :
    bindValues other schema = bindValues raw schema := by
  induction schema with
  | nil => rfl
  | cons p rest ih =>
    obtain ⟨first, later⟩ := List.forall_mem_cons.1 same
    rw [bindValues, bindValues, Parameter.rawValue_congr first, ih later]

/-- **Only raw values under names of the schema matter.** -/
theorem bind_eq_of_same {raw other : Table String} {schema : List Parameter}
    (same : ∀ p ∈ schema, other.get? p.name = raw.get? p.name) :
    bind schema other = bind schema raw := by
  rw [bind, bind, bindValues_congr same]

/-! ## Reading by name and type -/

namespace BoundArguments

variable {args : BoundArguments} {name : String}

/-- An argument with a value is read with the type of the value, and with no other type. -/
inductive Reads (args : BoundArguments) (name : String) : ArgumentValue → ValueType → Prop where
  | text {value : String} (string : args.string name = .ok value)
      (boolean : args.boolean name = .error (.argumentType name "bool"))
      (integer : args.integer name = .error (.argumentType name "int")) :
      Reads args name (.string value) .text
  | truth {value : Bool} (boolean : args.boolean name = .ok value)
      (string : args.string name = .error (.argumentType name "string"))
      (integer : args.integer name = .error (.argumentType name "int")) :
      Reads args name (.bool value) .truth
  | integer {value : Int64} (integer : args.integer name = .ok value)
      (string : args.string name = .error (.argumentType name "string"))
      (boolean : args.boolean name = .error (.argumentType name "bool")) :
      Reads args name (.int value) .integer

/-- There is nothing under a name, and no way to read it. -/
structure Lacks (args : BoundArguments) (name : String) : Prop where
  get? : args.get? name = none
  string : args.string name = .error (.missingArgument name)
  boolean : args.boolean name = .error (.missingArgument name)
  integer : args.integer name = .error (.missingArgument name)

theorem typed_of_get? {α : Type} {value : ArgumentValue} (expected : String)
    (select : ArgumentValue → Option α) (found : args.get? name = some value) :
    args.typed expected select name =
      match select value with
      | some value => .ok value
      | none => .error (.argumentType name expected) := by
  cases selected : select value with
  | some chosen => simp [typed, found, selected]
  | none => simp [typed, found, selected]

theorem typed_of_none {α : Type} (expected : String) (select : ArgumentValue → Option α)
    (absent : args.get? name = none) :
    args.typed expected select name = .error (.missingArgument name) := by
  rw [typed, absent]

/-- A value can be read with its own type alone. -/
theorem reads_of_get? {value : ArgumentValue} (found : args.get? name = some value) :
    args.Reads name value value.type := by
  cases value with
  | string value =>
    exact .text (typed_of_get? _ _ found) (typed_of_get? _ _ found) (typed_of_get? _ _ found)
  | bool value =>
    exact .truth (typed_of_get? _ _ found) (typed_of_get? _ _ found) (typed_of_get? _ _ found)
  | int value =>
    exact .integer (typed_of_get? _ _ found) (typed_of_get? _ _ found) (typed_of_get? _ _ found)

theorem lacks_of_get? (absent : args.get? name = none) : args.Lacks name :=
  ⟨absent, typed_of_none _ _ absent, typed_of_none _ _ absent, typed_of_none _ _ absent⟩

end BoundArguments

/-- Bound values stand under the names of the schema. -/
theorem map_fst_of_bound {raw : Table String} {schema : List Parameter}
    {values : List (String × ArgumentValue)}
    (bound : List.Forall₂ (Parameter.Bound raw) schema values) :
    values.map Prod.fst = schema.map Parameter.name := by
  induction bound with
  | nil => rfl
  | cons head _ ih => rw [List.map_cons, List.map_cons, head.name, ih]

/-- Nothing is bound under a name that no parameter has. -/
theorem lacks_of_bind {raw : Table String} {schema : List Parameter} {args : BoundArguments}
    {name : String} (bound : bind schema raw = .ok args)
    (foreign : name ∉ schema.map Parameter.name) : args.Lacks name := by
  apply BoundArguments.lacks_of_get?
  rw [← map_fst_of_bound (bind_eq_ok_iff.1 bound)] at foreign
  rw [BoundArguments.get?, List.lookup_eq_none_iff]
  intro entry member
  rw [bne_iff_ne]
  rintro rfl
  exact foreign (List.mem_map_of_mem member)

/-- The value of a parameter is read with the type of the parameter's kind. -/
theorem reads_of_bind {raw : Table String} {schema : List Parameter} {args : BoundArguments}
    {p : Parameter} (bound : bind schema raw = .ok args)
    (distinct : (schema.map Parameter.name).Nodup) (member : p ∈ schema) :
    ∃ value, p.parse (p.rawValue raw) = .ok value ∧ args.get? p.name = some value ∧
      args.Reads p.name value p.kind.type := by
  obtain ⟨value, found, parsed⟩ := get?_of_bind bound distinct member
  refine ⟨value, parsed, found, ?_⟩
  rw [← (Parameter.admits_of_parse parsed).type_eq]
  exact BoundArguments.reads_of_get? found

/-- **Binding is exact.** It succeeds exactly when every parameter takes its raw value, the
caller's or else the default, and then gives their values in the order of the schema; otherwise it
fails with the first refusal. Raw values under other names do not matter. When the names of the
schema are distinct, every parameter's value is found under its name and can be read with its type
alone, and no other name has a value. -/
theorem binding_exact (schema : List Parameter) (raw : Table String) :
    ((∃ args, bind schema raw = .ok args) ↔
      ∀ p ∈ schema, ∃ value, p.parse ((raw.get? p.name).getD p.default) = .ok value) ∧
    (∀ args, bind schema raw = .ok args → List.Forall₂
      (fun p entry => entry.1 = p.name ∧
        p.parse ((raw.get? p.name).getD p.default) = .ok entry.2) schema args.values) ∧
    (∀ error, bind schema raw = .error error ↔ FirstRefusal raw schema error) ∧
    (∀ other : Table String, (∀ p ∈ schema, other.get? p.name = raw.get? p.name) →
      bind schema other = bind schema raw) ∧
    ((schema.map Parameter.name).Nodup → ∀ args, bind schema raw = .ok args →
      (∀ p ∈ schema, ∃ value, p.parse ((raw.get? p.name).getD p.default) = .ok value ∧
        args.get? p.name = some value ∧ args.Reads p.name value p.kind.type) ∧
      ∀ name, name ∉ schema.map Parameter.name → args.Lacks name) := by
  refine ⟨exists_bind_iff, ?_, fun error => bind_eq_error_iff, fun other => bind_eq_of_same, ?_⟩
  · intro args bound
    exact (bind_eq_ok_iff.1 bound).imp fun p entry isBound => ⟨isBound.name, isBound.value⟩
  · intro distinct args bound
    exact ⟨fun p member => reads_of_bind bound distinct member,
      fun name foreign => lacks_of_bind bound foreign⟩

/-- A schema with a parameter of each type, bound with a number and a name that no parameter has;
another number is refused. -/
theorem binding_exact_refusal :
    let schema : List Parameter :=
      [.string "EntryPoint" "main", .boolean "Debug" false, .integerIn "Level" 0 3 1,
        .outputLanguage ["DXIL", "SPIR-V"] "DXIL"]
    let raw := (Table.empty.insert "Level" " 2").insert "Unknown" "x"
    let args : BoundArguments := ⟨[("EntryPoint", .string "main"), ("Debug", .bool false),
      ("Level", .int 2), ("OutputLanguage", .string "DXIL")]⟩
    let refused := Table.empty.insert "Level" "4"
    (schema.map Parameter.name).Nodup ∧ bind schema raw = .ok args ∧
      (∃ value, args.get? "Level" = some value ∧ args.Reads "Level" value .integer) ∧
      args.Lacks "Unknown" ∧ bind schema (Table.empty.insert "Level" " 2") = bind schema raw ∧
      FirstRefusal refused schema ⟨"Level", "4", .above 3⟩ := by
  intro schema raw args refused
  have distinct : (schema.map Parameter.name).Nodup := by decide
  have bound : bind schema raw = .ok args := by decide +kernel
  obtain ⟨_, _, _, congruent, reading⟩ := binding_exact schema raw
  obtain ⟨values, others⟩ := reading distinct args bound
  obtain ⟨value, _, found, reads⟩ := values (.integerIn "Level" 0 3 1) (by simp [schema])
  refine ⟨distinct, bound, ⟨value, found, reads⟩, others "Unknown" (by decide), ?_, ?_⟩
  · exact congruent _ (by decide +kernel)
  · exact ((binding_exact schema refused).2.2.1 _).1 (by decide +kernel)

end ShaderChain
