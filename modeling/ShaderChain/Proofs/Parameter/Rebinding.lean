import ShaderChain.Pipeline.Step
import ShaderChain.Proofs.Document
import ShaderChain.Proofs.Json.RoundTrip
import ShaderChain.Proofs.Parameter.Exactness
import ShaderChain.Proofs.Parameter.Grammar
import ShaderChain.Proofs.Toml.RoundTrip
import ShaderChain.Proofs.Toml.Value

/-!
# Bound arguments bind again

A value of a kind is denoted by its own text (`ParameterKind.Denotes.display`),
so bound arguments whose values are put under their names as texts are bound
again as they were (`bind_texts`).

The values may also be written as what they are, a text, a truth value or an
integer, among the arguments of a step in a document. Reading the step gives the
same texts (`Step.ofDocument?_typedDocument`), in whatever order the arguments
are written and in either notation (`bound_arguments_rebind`).
-/

set_option autoImplicit false

namespace ShaderChain

open Toml (Entries)
open Toml.Node

/-! ## The text of a value -/

theorem Text.isBlank_of_isDigit {c : Char} (digit : c.isDigit = true) : isBlank c = false := by
  rw [Char.isDigit, Bool.and_eq_true, decide_eq_true_iff, decide_eq_true_iff,
    ge_iff_le, UInt32.le_iff_toNat_le, UInt32.le_iff_toNat_le] at digit
  obtain ⟨low, high⟩ := digit
  change 48 ≤ c.toNat at low
  change c.toNat ≤ 57 at high
  simp [isBlank]
  omega

/-- The text of an integer has no blanks to strip. -/
theorem Integer.stripped_text (i : Int) : Text.Stripped (text i).toList (text i).toList := by
  apply Text.stripped_of_content
  intro c member
  rw [toList_text, List.mem_append] at member
  rcases member with sign | digit
  · split at sign
    · rw [List.mem_singleton.1 sign]
      decide
    · cases sign
  · exact Text.isBlank_of_isDigit ((toDigits_decimal _).digits c digit)

/-- The text of a truth value has no blanks to strip. -/
theorem ArgumentValue.stripped_boolText (b : Bool) :
    Text.Stripped (boolText b).toList (boolText b).toList := by
  apply Text.stripped_of_content
  cases b with
  | true => simp [boolText, Text.isBlank]
  | false => simp [boolText, Text.isBlank]

/-- **A value of a kind is denoted by its own text.** -/
theorem ParameterKind.Denotes.display {kind : ParameterKind} {raw : String} {value : ArgumentValue}
    (denotes : Denotes raw kind value) : Denotes value.display kind value := by
  cases denotes with
  | string => exact .string
  | isTrue => exact .isTrue (ArgumentValue.stripped_boolText true) (.refl _)
  | isFalse => exact .isFalse (ArgumentValue.stripped_boolText false) (.refl _)
  | @int min max _ value _ _ low high =>
    exact .int (Integer.stripped_text value.toInt) (Integer.literal_text value.toInt) low high
  | choice listed => exact .choice listed
  | outputLanguage listed => exact .outputLanguage listed

theorem Parameter.parse_display {p : Parameter} {raw : String} {value : ArgumentValue}
    (parsed : p.parse raw = .ok value) : p.parse value.display = .ok value := by
  rw [parse_eq_ok_iff, ParameterKind.parse_eq_ok_iff] at parsed ⊢
  exact parsed.display

/-! ## The texts of bound arguments -/

variable {raw : Table String} {schema : List Parameter} {args : BoundArguments}

/-- The texts of bound arguments under their names. -/
def BoundArguments.texts (args : BoundArguments) : Table String :=
  .ofList (args.values.map fun entry => (entry.1, entry.2.display))

/-- Bound arguments have the distinct names of their schema. -/
theorem nodup_of_bind (distinct : (schema.map Parameter.name).Nodup)
    (bound : bind schema raw = .ok args) : (args.values.map Prod.fst).Nodup := by
  rw [map_fst_of_bound (bind_eq_ok_iff.1 bound)]
  exact distinct

theorem BoundArguments.entries_texts (distinct : (args.values.map Prod.fst).Nodup) :
    args.texts.entries.Perm (args.values.map fun entry => (entry.1, entry.2.display)) := by
  apply Table.ofList_perm
  rw [List.map_map]
  exact distinct

/-- Raw arguments with the texts of values under their names are bound to these values. -/
theorem bound_of_texts {texts : Table String} {values : List (String × ArgumentValue)}
    (bound : List.Forall₂ (Parameter.Bound raw) schema values)
    (found : ∀ entry ∈ values, texts.get? entry.1 = some entry.2.display) :
    List.Forall₂ (Parameter.Bound texts) schema values := by
  induction bound with
  | nil => exact .nil
  | @cons p entry rest values head _ ih =>
    obtain ⟨first, later⟩ := List.forall_mem_cons.1 found
    refine .cons ⟨head.name, ?_⟩ (ih later)
    rw [Parameter.rawValue, ← head.name, first, Option.getD_some]
    exact Parameter.parse_display head.value

/-- **The texts of bound arguments are bound to the same values.** -/
theorem bind_texts (distinct : (schema.map Parameter.name).Nodup)
    (bound : bind schema raw = .ok args) : bind schema args.texts = .ok args := by
  rw [bind_eq_ok_iff]
  refine bound_of_texts (bind_eq_ok_iff.1 bound) ?_
  intro entry member
  apply Table.get?_of_mem
  rw [(BoundArguments.entries_texts (nodup_of_bind distinct bound)).mem_iff]
  exact List.mem_map_of_mem member

/-! ## Values written in a step -/

namespace Step

/-- The document of a step whose arguments are written as values, in some order. -/
def typedDocument (tool : String) (arguments : List (String × ArgumentValue)) : Document :=
  .table [("tool", .text tool),
    ("arguments", .table (arguments.map fun entry => (entry.1, entry.2.toDocument)))]

/-- A value in a document stands for its text. -/
theorem argumentText?_toDocument (value : ArgumentValue) :
    argumentText? value.toDocument = some value.display := by
  cases value with
  | string value => rfl
  | bool value => rfl
  | int value =>
    change integerText value.toInt = some (Integer.text value.toInt)
    have within := Integer.within_eq_true (Integer.least_le_toInt value)
      (Integer.toInt_le_greatest value)
    rw [integerText, if_pos within]

/-- **A step whose arguments are written as values has their texts.** -/
theorem ofDocument?_typedDocument (tool : String) {arguments : List (String × ArgumentValue)}
    (distinct : (args.values.map Prod.fst).Nodup) (same : arguments.Perm args.values) :
    ofDocument? (typedDocument tool arguments) = some ⟨tool, args.texts⟩ := by
  have texts := Document.readEntries?_image argumentText?_toDocument arguments
  have table : Table.ofList (arguments.map fun entry => (entry.1, entry.2.display)) = args.texts :=
    Table.ofList_eq_of_perm
      ((same.map _).trans (BoundArguments.entries_texts distinct).symm)
  have record : (typedDocument tool arguments).record? fields =
      some [some (.text tool),
        some (.table (arguments.map fun entry => (entry.1, entry.2.toDocument)))] := rfl
  rw [ofDocument?, record]
  dsimp only [Document.text?, Document.orDefault?, Document.table?]
  rw [texts, Option.map_some, table]

/-! ## The notations -/

theorem written_toDocument (value : ArgumentValue) : Json.Written 0 value.toDocument := by
  cases value with
  | string value => exact .text value
  | bool value => exact .bool value
  | int value =>
    refine .int value.le_toInt (Int.lt_trans value.toInt_lt ?_)
    decide

theorem written_typedDocument (tool : String) (arguments : List (String × ArgumentValue)) :
    Json.Written Json.depthLimit (typedDocument tool arguments) := by
  have values : Json.Written 1
      (.table (arguments.map fun entry => (entry.1, entry.2.toDocument))) := by
    refine .table ?_
    intro entry member
    obtain ⟨argument, _, rfl⟩ := List.mem_map.1 member
    exact written_toDocument argument.2
  have whole : Json.Written 2 (typedDocument tool arguments) := by
    refine .table (List.forall_mem_cons.2 ⟨.text tool, List.forall_mem_cons.2 ⟨values, ?_⟩⟩)
    exact List.forall_mem_nil _
  exact whole.mono (by decide)

theorem rereads_toDocument (value : ArgumentValue) : Toml.Rereads value.toDocument := by
  cases value with
  | string value => exact Toml.rereads_text value
  | bool value => exact Toml.rereads_bool value
  | int value =>
    exact Toml.rereads_int (Integer.least_le_toInt value) (Integer.toInt_le_greatest value)

/-- The tree of a step whose arguments are written as values. -/
def typedTree (tool : String) (arguments : List (String × ArgumentValue)) : Entries :=
  [("tool", leaf (.text tool)),
    ("arguments", table .explicit (arguments.map fun entry => (entry.1, leaf entry.2.toDocument)))]

theorem tidy_typedTree (tool : String) {arguments : List (String × ArgumentValue)}
    (distinct : (arguments.map Prod.fst).Nodup) : EntriesTidy (typedTree tool arguments) :=
  Toml.tidy_leaf (Toml.rereads_text tool) (by simp [Fresh])
    (Toml.tidy_single (Toml.tidy_table rereads_toDocument distinct))

theorem entryDocuments_typedTree (tool : String) (arguments : List (String × ArgumentValue)) :
    Document.table (entryDocuments (typedTree tool arguments)) = typedDocument tool arguments := by
  rw [typedDocument, ← Toml.entryDocuments_leaves ArgumentValue.toDocument arguments]
  rfl

theorem isWritable_typedDocument (tool : String) (arguments : List (String × ArgumentValue)) :
    Toml.isWritable (typedDocument tool arguments) = true := by
  have writable (value : ArgumentValue) : Toml.isWritable value.toDocument = true := by
    cases value with
    | string value => rfl
    | bool value => rfl
    | int value =>
      exact Integer.within_eq_true (Integer.least_le_toInt value) (Integer.toInt_le_greatest value)
  have values := Toml.entriesWritable_map ArgumentValue.toDocument writable arguments
  simp [typedDocument, Toml.isWritable, Toml.entriesWritable, values]

theorem read?_render_typedDocument (tool : String) (arguments : List (String × ArgumentValue))
    (layout : Option Nat) :
    Json.read? (Json.render layout (typedDocument tool arguments)) =
      some (typedDocument tool arguments) :=
  Json.read?_render (written_typedDocument tool arguments) layout

theorem read?_write_typedDocument (tool : String) {arguments : List (String × ArgumentValue)}
    (distinct : (arguments.map Prod.fst).Nodup) :
    Toml.read? (Toml.write (typedDocument tool arguments)) =
      some (typedDocument tool arguments) := by
  have reads := Toml.read?_write (tidy_typedTree tool distinct)
  rw [entryDocuments_typedTree] at reads
  exact reads

end Step

/-! ## Binding again -/

/-- **Bound arguments bind again as they were.** The text of a parsed value parses to the value. If
the names of a schema are distinct, arguments bound against it are bound again from their texts,
and from a step in which they are written as values in any order: as a document and as a text in
either notation, the step has the same tool and raw arguments that are bound to the same values. -/
theorem bound_arguments_rebind :
    (∀ (p : Parameter) (raw : String) (value : ArgumentValue), p.parse raw = .ok value →
      p.parse value.display = .ok value) ∧
    ∀ (schema : List Parameter) (raw : Table String) (args : BoundArguments),
      (schema.map Parameter.name).Nodup → bind schema raw = .ok args →
      bind schema args.texts = .ok args ∧
      ∀ (tool : String) (arguments : List (String × ArgumentValue)), arguments.Perm args.values →
        ∃ s : Step, s.tool = tool ∧ bind schema s.arguments = .ok args ∧
          Step.ofDocument? (Step.typedDocument tool arguments) = some s ∧
          (∀ layout, (Json.read? (Json.render layout (Step.typedDocument tool arguments))).bind
            Step.ofDocument? = some s) ∧
          ∃ text, Toml.write? (Step.typedDocument tool arguments) = some text ∧
            (Toml.read? text).bind Step.ofDocument? = some s := by
  refine ⟨fun p raw value => Parameter.parse_display, ?_⟩
  intro schema raw args distinct bound
  have again := bind_texts distinct bound
  refine ⟨again, ?_⟩
  intro tool arguments same
  have names := nodup_of_bind distinct bound
  have step := Step.ofDocument?_typedDocument tool names same
  refine ⟨⟨tool, args.texts⟩, rfl, again, step, ?_, ?_⟩
  · intro layout
    rw [Step.read?_render_typedDocument, Option.bind_some, step]
  · refine ⟨_, if_pos (Step.isWritable_typedDocument tool arguments), ?_⟩
    rw [Step.read?_write_typedDocument tool ((same.map Prod.fst).nodup_iff.2 names),
      Option.bind_some, step]

/-- A value of each type, among them the least integer and a text with blanks at its ends, written
in reverse. -/
theorem bound_arguments_rebind_least :
    let schema : List Parameter :=
      [.string "EntryPoint" "main", .boolean "Debug" false, .integer "Seed" 0,
        .outputLanguage ["DXIL", " SPIR-V"] "DXIL"]
    let raw := Table.ofList [("EntryPoint", " true "), ("Debug", "\u00A0TRUE\n"),
      ("Seed", " -09223372036854775808"), ("OutputLanguage", " SPIR-V")]
    let args : BoundArguments := ⟨[("EntryPoint", .string " true "), ("Debug", .bool true),
      ("Seed", .int Int64.minValue), ("OutputLanguage", .string " SPIR-V")]⟩
    bind schema raw = .ok args ∧ bind schema args.texts = .ok args ∧
      (∃ s : Step, s.tool = "dxc" ∧ bind schema s.arguments = .ok args ∧
        Step.ofDocument? (Step.typedDocument "dxc" args.values.reverse) = some s) ∧
      (Parameter.integer "Seed" 0).parse "-9223372036854775808" = .ok (.int Int64.minValue) := by
  intro schema raw args
  have distinct : (schema.map Parameter.name).Nodup := by decide
  have bound : bind schema raw = .ok args := by decide +kernel
  obtain ⟨texts, steps⟩ := bound_arguments_rebind.2 schema raw args distinct bound
  obtain ⟨s, tool, again, step, _⟩ := steps "dxc" _ args.values.reverse_perm
  refine ⟨bound, texts, ⟨s, tool, again, step⟩, ?_⟩
  exact bound_arguments_rebind.1 (.integer "Seed" 0) " -09223372036854775808"
    (.int Int64.minValue) (by decide +kernel)

end ShaderChain
