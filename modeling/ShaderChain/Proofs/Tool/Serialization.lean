import Mathlib.Data.Set.Function
import ShaderChain.Proofs.Document
import ShaderChain.Proofs.Json.RoundTrip
import ShaderChain.Proofs.Text.Base64
import ShaderChain.Tool.Basic

/-!
# Results and descriptors in JSON read back

What a step yields and what describes a tool are written as JSON, and read as
what they were (`serialization_round_trip`). Each kind of value has documents
that read back and a bound on their nesting (`Json.Faithful`); such kinds are put
together from those of their parts.

Bytes stand in Base64, where exactly the texts that are written for bytes are
read.
-/

set_option autoImplicit false

namespace ShaderChain

open Json (Written)

/-- Whether values are written as documents of some depth that are read as these values. -/
structure Json.Faithful {α : Type} (depth : Nat) (write : α → Document)
    (read : Document → Option α) : Prop where
  written : ∀ a, Written depth (write a)
  reads : ∀ a, read (write a) = some a

namespace Json.Faithful

variable {α : Type} {depth : Nat} {write : α → Document} {read : Document → Option α}

/-- The text of a value reads back in every layout. -/
theorem read?_render (faithful : Faithful depth write read) (shallow : depth ≤ depthLimit) (a : α)
    (layout : Option Nat) : (read? (render layout (write a))).bind read = some a := by
  rw [Json.read?_render ((faithful.written a).mono shallow) layout]
  exact faithful.reads a

theorem text : Faithful 0 Document.text Document.text? :=
  ⟨fun value => .text value, fun _ => rfl⟩

/-- Lists of such values. -/
theorem list (faithful : Faithful depth write read) :
    Faithful (depth + 1) (fun values => .list (values.map write)) (Document.list? read) where
  written values := by
    apply Written.list
    intro item member
    obtain ⟨a, -, rfl⟩ := List.mem_map.1 member
    exact faithful.written a
  reads values := Document.list?_map faithful.reads values

/-- Values that may be missing, if none is written as `null`. -/
theorem optional (faithful : Faithful depth write read) (some : ∀ a, write a ≠ .null) :
    Faithful depth (fun value : Option α => (value.map write).getD .null)
      (Document.optional? read) where
  written value := by
    cases value with
    | none => exact .null
    | some a => exact faithful.written a
  reads value := Document.optional?_getD faithful.reads some value

end Json.Faithful

open Json (Faithful)

/-! ## Integers -/

theorem faithful_uint64 :
    Faithful 0 (fun value : UInt64 => .int value.toNat) Document.uint64? where
  written value := by
    have bound := value.toNat_lt
    apply Written.int
    · rw [Json.signedLimit]
      omega
    · rw [Json.unsignedLimit]
      omega
  reads := Document.uint64?_toNat

theorem faithful_int64 : Faithful 0 (fun value : Int64 => .int value.toInt) Document.int64? where
  written value := by
    have low := value.le_toInt
    have high := value.toInt_lt
    apply Written.int
    · rw [Json.signedLimit]
      omega
    · rw [Json.unsignedLimit]
      omega
  reads := Document.int64?_toInt

/-! ## Results -/

theorem Payload.faithful : Faithful 1 toDocument ofDocument? where
  written p := by
    cases p with
    | text content =>
      apply Written.table
      simp only [List.forall_mem_cons]
      exact ⟨.text _, .text _, nofun⟩
    | binary content =>
      apply Written.table
      simp only [List.forall_mem_cons]
      exact ⟨.text _, .text _, nofun⟩
  reads p := by
    cases p with
    | text content => rfl
    | binary content =>
      have parts : (binary content).toDocument.record? fields =
          some [some (.text "binary"), some (.text (Text.Base64.encode content))] := rfl
      rw [ofDocument?, parts]
      change ((Text.Base64.decode? (Text.Base64.encode content)).map binary) = _
      rw [Text.Base64.decode?_encode]
      rfl

theorem Artifact.faithful : Faithful 2 toDocument ofDocument? where
  written a := by
    apply Written.table
    simp only [List.forall_mem_cons]
    exact ⟨.text _, Payload.faithful.written a.payload, nofun⟩
  reads a := by
    have parts : a.toDocument.record? fields =
        some [some (.text a.language), some a.payload.toDocument] := rfl
    rw [ofDocument?, parts]
    dsimp only [Document.text?]
    rw [Payload.faithful.reads]

theorem OutputKind.ofName?_name (kind : OutputKind) : ofName? kind.name = some kind := by
  cases kind with
  | output => rfl
  | error => rfl

theorem StepOutput.faithful : Faithful 2 toDocument ofDocument? where
  written o := by
    apply Written.table
    simp only [List.forall_mem_cons]
    have language := (Faithful.text.optional fun _ => nofun).written o.language
    exact ⟨.text _, language.mono (Nat.zero_le 1), Payload.faithful.written o.value, .text _, nofun⟩
  reads o := by
    have parts : o.toDocument.record? fields = some [some (.text o.displayName),
        some (.optionalText o.language), some o.value.toDocument, some (.text o.kind.name)] := rfl
    have language : (Document.optionalText o.language).optional? Document.text? =
        some o.language :=
      (Faithful.text.optional fun _ => nofun).reads o.language
    rw [ofDocument?, parts]
    dsimp only [Document.text?, Document.alternative?, Option.bind_some]
    rw [language, Payload.faithful.reads, OutputKind.ofName?_name]

theorem StepResult.faithful : Faithful 4 toDocument ofDocument? where
  written r := by
    have pipeable := (Artifact.faithful.optional fun _ => nofun).written r.pipeable
    have outputs := StepOutput.faithful.list.written r.outputs
    apply Written.table
    simp only [List.forall_mem_append, List.forall_mem_cons]
    refine ⟨⟨pipeable.mono (by decide), outputs, nofun⟩, ?_⟩
    cases r.selected with
    | none => exact nofun
    | some position =>
      intro entry member
      cases List.mem_singleton.1 member
      exact (faithful_uint64.written position).mono (by decide)
  reads r := by
    have pipeable := (Artifact.faithful.optional fun _ => nofun).reads r.pipeable
    have outputs := StepOutput.faithful.list.reads r.outputs
    have parts : r.toDocument.record? fields =
        some [some ((r.pipeable.map Artifact.toDocument).getD .null),
          some (.list (r.outputs.map StepOutput.toDocument)),
          r.selected.map fun position => .int position.toNat] := by
      rw [toDocument]
      cases r.selected with
      | none => rfl
      | some position => rfl
    have selected : Document.orDefault? none (Document.optional? Document.uint64?)
        (r.selected.map fun position => .int position.toNat) = some r.selected :=
      Document.orDefault?_optional (fun value _ => Document.uint64?_toNat value) fun _ _ => nofun
    rw [ofDocument?, parts]
    dsimp only
    rw [pipeable, outputs, selected]

/-! ## Descriptors -/

namespace ParameterKind

theorem areDefined_texts (items : List String) :
    Document.areDefined (items.map Document.text) = true := by
  induction items with
  | nil => rfl
  | cons item items ih =>
    rw [List.map_cons, Document.areDefined, ih]
    rfl

theorem written_boundEntry (name : String) (bound : Option Int64) :
    ∀ entry ∈ boundEntry name bound, Written 1 entry.2 := by
  cases bound with
  | none => exact nofun
  | some value =>
    intro entry member
    cases List.mem_singleton.1 member
    exact (faithful_int64.written value).mono (by decide)

theorem ofTagged?_bounds (min max : Option Int64) :
    ofTagged? "int" (.table (boundEntry "min" min ++ boundEntry "max" max)) =
      some (int min max) := by
  have isDefined : (Document.table (boundEntry "min" min ++ boundEntry "max" max)).isDefined =
      true := by
    cases min with
    | none => cases max with
      | none => rfl
      | some max => rfl
    | some min => cases max with
      | none => rfl
      | some max => rfl
  have parts : (Document.table (boundEntry "min" min ++ boundEntry "max" max)).record?
      [⟨"min", .defaulted⟩, ⟨"max", .defaulted⟩] =
        some [min.map fun value => .int value.toInt, max.map fun value => .int value.toInt] := by
    cases min with
    | none => cases max with
      | none => rfl
      | some max => rfl
    | some min => cases max with
      | none => rfl
      | some max => rfl
  rw [ofTagged?, isDefined, if_neg (by decide), if_neg (by decide), if_neg (by decide),
    if_pos rfl, parts]
  dsimp only
  rw [Document.orDefault?_optional (fun value _ => Document.int64?_toInt value) fun _ _ => nofun,
    Document.orDefault?_optional (fun value _ => Document.int64?_toInt value) fun _ _ => nofun]

theorem ofTagged?_allowed {name : String} {kind : ParameterKind} (allowed : List String)
    (named : name = "enum" ∧ kind = choice allowed ∨
      name = "output_language" ∧ kind = outputLanguage allowed) :
    ofTagged? name (.table [("allowed", .texts allowed)]) = some kind := by
  have isDefined : (Document.table [("allowed", .texts allowed)]).isDefined = true := by
    change (Document.areDefined (allowed.map Document.text) && true) = true
    rw [areDefined_texts]
    rfl
  have parts : (Document.table [("allowed", .texts allowed)]).record? [⟨"allowed", .required⟩] =
      some [some (.texts allowed)] := rfl
  have texts : Document.list? Document.text? (.texts allowed) = some allowed :=
    Faithful.text.list.reads allowed
  rw [ofTagged?, isDefined, parts]
  dsimp only
  rw [texts]
  rcases named with ⟨rfl, rfl⟩ | ⟨rfl, rfl⟩
  · rfl
  · rfl

theorem faithful : Faithful 2 toDocument ofDocument? where
  written kind := by
    cases kind with
    | string =>
      apply Written.table
      simp only [List.forall_mem_cons]
      exact ⟨.text _, nofun⟩
    | bool =>
      apply Written.table
      simp only [List.forall_mem_cons]
      exact ⟨.text _, nofun⟩
    | int min max =>
      apply Written.table
      simp only [List.forall_mem_cons, List.forall_mem_append]
      exact ⟨.text _, written_boundEntry "min" min, written_boundEntry "max" max⟩
    | choice allowed =>
      apply Written.table
      simp only [List.forall_mem_cons]
      exact ⟨.text _, Faithful.text.list.written allowed, nofun⟩
    | outputLanguage allowed =>
      apply Written.table
      simp only [List.forall_mem_cons]
      exact ⟨.text _, Faithful.text.list.written allowed, nofun⟩
  reads kind := by
    cases kind with
    | string => rfl
    | bool => rfl
    | int min max =>
      rw [← ofTagged?_bounds, toDocument, ofDocument?]
      cases min with
      | none => cases max with
        | none => rfl
        | some max => rfl
      | some min => cases max with
        | none => rfl
        | some max => rfl
    | choice allowed => exact ofTagged?_allowed allowed (.inl ⟨rfl, rfl⟩)
    | outputLanguage allowed => exact ofTagged?_allowed allowed (.inr ⟨rfl, rfl⟩)

end ParameterKind

theorem Parameter.faithful : Faithful 3 toDocument ofDocument? where
  written p := by
    apply Written.table
    simp only [List.forall_mem_cons]
    exact ⟨.text _, .text _, ParameterKind.faithful.written p.kind, .text _, nofun⟩
  reads p := by
    have parts : p.toDocument.record? fields = some [some (.text p.name),
        some (.text p.description), some p.kind.toDocument, some (.text p.default)] := rfl
    rw [ofDocument?, parts]
    dsimp only [Document.text?, Document.orDefault?]
    rw [ParameterKind.faithful.reads]

theorem ToolDescriptor.faithful : Faithful 5 toDocument ofDocument? where
  written d := by
    have inputs := Faithful.text.list.written d.inputLanguages
    have outputs := Faithful.text.list.written d.outputLanguages
    apply Written.table
    simp only [List.forall_mem_cons]
    exact ⟨.text _, .text _, .text _, inputs.mono (by decide), outputs.mono (by decide),
      Parameter.faithful.list.written d.parameters, nofun⟩
  reads d := by
    have inputs : Document.list? Document.text? (.texts d.inputLanguages) =
        some d.inputLanguages :=
      Faithful.text.list.reads d.inputLanguages
    have outputs : Document.list? Document.text? (.texts d.outputLanguages) =
        some d.outputLanguages :=
      Faithful.text.list.reads d.outputLanguages
    have parameters := Parameter.faithful.list.reads d.parameters
    have parts : d.toDocument.record? fields = some [some (.text d.name), some (.text d.displayName),
        some (.text d.description), some (.texts d.inputLanguages),
        some (.texts d.outputLanguages), some (.list (d.parameters.map Parameter.toDocument))] :=
      rfl
    rw [ofDocument?, parts]
    dsimp only [Document.text?, Document.orDefault?]
    rw [inputs, outputs, parameters]

/-! ## Bytes -/

/-- A payload whose text is Base64 is read exactly if the text is the one written for its
bytes. -/
theorem Payload.ofDocument?_binary_iff {text : String} {p : Payload} :
    ofDocument? (.table [("code_type", .text "binary"), ("value", .text text)]) = some p ↔
      ∃ bytes, p = .binary bytes ∧ text = Text.Base64.encode bytes := by
  have read : ofDocument? (.table [("code_type", .text "binary"), ("value", .text text)]) =
      (Text.Base64.decode? text).map binary := rfl
  rw [read, Option.map_eq_some_iff]
  constructor
  · rintro ⟨bytes, decoded, rfl⟩
    exact ⟨bytes, rfl, Text.Base64.decode?_eq_some_iff.1 decoded⟩
  · rintro ⟨bytes, rfl, rfl⟩
    exact ⟨bytes, Text.Base64.decode?_encode bytes, rfl⟩

/-- Writing is a bijection between bytes and the texts that are read. -/
theorem Text.Base64.bijOn_encode :
    Set.BijOn encode Set.univ {text | (decode? text).isSome = true} := by
  refine ⟨?_, ?_, ?_⟩
  · intro bytes _
    change (decode? (encode bytes)).isSome = true
    rw [decode?_encode]
    rfl
  · intro first _ second _ same
    have decoded := decode?_encode first
    rw [same, decode?_encode second] at decoded
    exact (Option.some.inj decoded).symm
  · intro text accepted
    obtain ⟨bytes, decoded⟩ := Option.isSome_iff_exists.1 accepted
    exact ⟨bytes, Set.mem_univ bytes, (decode?_eq_some_iff.1 decoded).symm⟩

/-- **Results and descriptors read back** from their JSON in every layout, and so do their parts.
The bytes of a payload read back from Base64, and of all texts only those written for bytes are
read: the texts that stand for the bytes by the standard. -/
theorem serialization_round_trip :
    (∀ (layout : Option Nat),
      (∀ r : StepResult,
        (Json.read? (Json.render layout r.toDocument)).bind StepResult.ofDocument? = some r) ∧
      (∀ o : StepOutput,
        (Json.read? (Json.render layout o.toDocument)).bind StepOutput.ofDocument? = some o) ∧
      (∀ a : Artifact,
        (Json.read? (Json.render layout a.toDocument)).bind Artifact.ofDocument? = some a) ∧
      (∀ p : Payload,
        (Json.read? (Json.render layout p.toDocument)).bind Payload.ofDocument? = some p) ∧
      (∀ d : ToolDescriptor,
        (Json.read? (Json.render layout d.toDocument)).bind ToolDescriptor.ofDocument? = some d) ∧
      (∀ p : Parameter,
        (Json.read? (Json.render layout p.toDocument)).bind Parameter.ofDocument? = some p) ∧
      ∀ kind : ParameterKind,
        (Json.read? (Json.render layout kind.toDocument)).bind ParameterKind.ofDocument? =
          some kind) ∧
    (∀ bytes, Text.Base64.decode? (Text.Base64.encode bytes) = some bytes) ∧
    (∀ text bytes, Text.Base64.decode? text = some bytes ↔ text = Text.Base64.encode bytes) ∧
    (∀ text bytes, Text.Base64.decode? text = some bytes ↔ Text.Base64.Standard text bytes) ∧
    (∀ text p, Payload.ofDocument? (.table [("code_type", .text "binary"), ("value", .text text)]) =
      some p ↔ ∃ bytes, p = .binary bytes ∧ text = Text.Base64.encode bytes) ∧
    Set.BijOn Text.Base64.encode Set.univ {text | (Text.Base64.decode? text).isSome = true} := by
  refine ⟨fun layout => ⟨?_, ?_, ?_, ?_, ?_, ?_, ?_⟩, Text.Base64.decode?_encode, ?_, ?_, ?_,
    Text.Base64.bijOn_encode⟩
  · exact fun r => StepResult.faithful.read?_render (by decide) r layout
  · exact fun o => StepOutput.faithful.read?_render (by decide) o layout
  · exact fun a => Artifact.faithful.read?_render (by decide) a layout
  · exact fun p => Payload.faithful.read?_render (by decide) p layout
  · exact fun d => ToolDescriptor.faithful.read?_render (by decide) d layout
  · exact fun p => Parameter.faithful.read?_render (by decide) p layout
  · exact fun kind => ParameterKind.faithful.read?_render (by decide) kind layout
  · exact fun text bytes => Text.Base64.decode?_eq_some_iff
  · exact fun text bytes => Text.Base64.decode?_eq_some_iff.trans Text.Base64.standard_iff.symm
  · exact fun text p => Payload.ofDocument?_binary_iff

end ShaderChain
