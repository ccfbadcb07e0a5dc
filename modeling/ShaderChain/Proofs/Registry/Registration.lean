import Mathlib.Data.List.Nodup
import Mathlib.Data.List.Perm.Basic
import ShaderChain.Language
import ShaderChain.Proofs.Registry.Reachable
import ShaderChain.Proofs.Table
import ShaderChain.Proofs.Text.ByteOrder

/-!
# What registering does

A registration succeeds exactly when the tool is admissible
(`Registry.register_eq_ok_iff_admissible`); otherwise the registry stays as it
was. Of a sequence of registrations, some of which may be refused, the registry
holds those that succeeded, the first of a name standing under it
(`Registry.Holds`): one registration that succeeds keeps this
(`Holds.register`), and so does every sequence (`Holds.offerAll`).

Tools with names of their own may be registered in any order
(`Registry.offerAll_eq_of_perm`), because two registrations of such tools can be
exchanged (`Registry.offer_comm`).
-/

set_option autoImplicit false

namespace ShaderChain

namespace Registry

variable {m : Type → Type}

/-! ## One registration -/

/-- A tool that a registry takes: its name has a character that is not blank and is new, it takes a
language, no two of its parameters have one name, every language to select from is declared, and
every default is a value of its parameter. -/
structure Admissible (r : Registry m) (t : Tool m) : Prop where
  named : ∃ c ∈ t.descriptor.name.toList, Text.isBlank c = false
  takes : t.descriptor.inputLanguages ≠ []
  distinct : t.descriptor.parameters.Pairwise fun p q => p.name ≠ q.name
  declared : ∀ p ∈ t.descriptor.parameters, ∀ allowed, p.kind = .outputLanguage allowed →
    ∀ language ∈ allowed, language ∈ t.descriptor.outputLanguages
  defaults : ∀ p ∈ t.descriptor.parameters, ∃ value, p.kind.parse p.default = .ok value
  new : t.name ∉ r.names

end Registry

theorem Text.isBlankText_eq_false_iff {s : String} :
    isBlankText s = false ↔ ∃ c ∈ s.toList, isBlank c = false := by
  simp [isBlankText]

theorem Parameter.selectsAmong_iff {languages : List String} {p : Parameter} :
    p.SelectsAmong languages ↔
      ∀ allowed, p.kind = .outputLanguage allowed → ∀ language ∈ allowed, language ∈ languages := by
  rw [SelectsAmong, outputLanguages?]
  cases p.kind with
  | outputLanguage allowed => simp
  | _ => simp

/-- A parameter takes a raw text if its kind does. -/
theorem Parameter.exists_parse_iff {p : Parameter} {raw : String} :
    (∃ value, p.parse raw = .ok value) ↔ ∃ value, p.kind.parse raw = .ok value := by
  rw [parse]
  cases p.kind.parse raw with
  | error fault => simp [Except.mapError]
  | ok value => simp [Except.mapError]

/-- The defaults of a schema can be bound if each of them is a value of its parameter. -/
theorem exists_bind_empty_iff {schema : List Parameter} :
    (∃ args, bind schema .empty = .ok args) ↔
      ∀ p ∈ schema, ∃ value, p.kind.parse p.default = .ok value := by
  rw [exists_bind_iff]
  apply forall₂_congr
  intro p _
  exact Parameter.exists_parse_iff

namespace Registry

variable {m : Type → Type}

theorem contains_eq_false_iff {r : Registry m} {name : String} :
    r.contains name = false ↔ name ∉ r.names := by
  rw [names, Table.mem_names_iff, Bool.not_eq_true]
  rfl

theorem admissible_iff {r : Registry m} {t : Tool m} :
    r.Admissible t ↔ t.descriptor.WellFormed ∧ r.contains t.name = false := by
  rw [contains_eq_false_iff]
  constructor
  · rintro ⟨named, takes, distinct, declared, defaults, new⟩
    refine ⟨⟨Text.isBlankText_eq_false_iff.2 named, takes, List.pairwise_map.2 distinct, ?_,
      exists_bind_empty_iff.2 defaults⟩, new⟩
    intro p member
    exact Parameter.selectsAmong_iff.2 (declared p member)
  · rintro ⟨⟨named, takes, distinct, declared, defaults⟩, new⟩
    refine ⟨Text.isBlankText_eq_false_iff.1 named, takes, List.pairwise_map.1 distinct, ?_,
      exists_bind_empty_iff.1 defaults, new⟩
    intro p member
    exact Parameter.selectsAmong_iff.1 (declared p member)

/-- **A registration succeeds exactly when the tool is admissible,** and then puts it under its
name. -/
theorem register_eq_ok_iff_admissible {r next : Registry m} {t : Tool m} :
    r.register t = .ok next ↔ r.Admissible t ∧ next = ⟨r.tools.insert t.name t⟩ := by
  rw [register_eq_ok_iff, admissible_iff, and_assoc]

theorem exists_register_iff {r : Registry m} {t : Tool m} :
    (∃ next, r.register t = .ok next) ↔ r.Admissible t := by
  simp [register_eq_ok_iff_admissible]

theorem offer_of_admissible {r : Registry m} {t : Tool m} (admissible : r.Admissible t) :
    r.offer t = ⟨r.tools.insert t.name t⟩ := by
  exact offer_of_register_eq_ok (register_eq_ok_iff_admissible.2 ⟨admissible, rfl⟩)

/-- A tool that is refused leaves the registry as it was. -/
theorem offer_of_not_admissible {r : Registry m} {t : Tool m} (refused : ¬ r.Admissible t) :
    r.offer t = r := by
  cases registered : r.register t with
  | error error => exact offer_of_register_eq_error registered
  | ok next => exact absurd (exists_register_iff.1 ⟨next, registered⟩) refused

/-! ## Sequences of registrations -/

/-- The tools whose registration succeeds, of those that a registry is offered in turn. -/
def accepted (r : Registry m) : List (Tool m) → List (Tool m)
  | [] => []
  | t :: rest =>
    match r.register t with
    | .ok next => t :: next.accepted rest
    | .error _ => r.accepted rest

/-- What a registry tells of the tools that were registered in it, in this order. -/
structure Holds (r : Registry m) (registered : List (Tool m)) : Prop where
  /-- Every tool stands under its own name. -/
  own : ∀ name t, r.get? name = some t → t.name = name
  /-- Under a name stands the first tool with this name. -/
  first : ∀ name, r.get? name = registered.find? (·.name == name)
  /-- The names with a tool are listed in the order of their bytes, and none twice. -/
  increasing : r.names.Pairwise fun a b => Text.encode a < Text.encode b
  listed : ∀ name, name ∈ r.names ↔ r.contains name = true
  /-- The descriptors are listed in the same order. -/
  described : r.descriptors.map ToolDescriptor.name = r.names
  /-- Every registration counts. -/
  counted : r.size = registered.length

/-- The names of a registry are in the order of their bytes. -/
theorem pairwise_names (r : Registry m) :
    r.names.Pairwise fun a b => Text.encode a < Text.encode b := by
  refine r.tools.pairwise_names.imp ?_
  intro a b less
  exact Text.encode_lt_encode_iff.2 less

/-- The descriptors of tools that stand under their own names are in the order of the names. -/
theorem map_name_descriptors {r : Registry m}
    (own : ∀ name t, r.get? name = some t → t.name = name) :
    r.descriptors.map ToolDescriptor.name = r.names := by
  rw [descriptors, names, Table.values, Table.names, List.map_map, List.map_map]
  apply List.map_congr_left
  rintro ⟨name, t⟩ member
  exact own name t (Table.get?_of_mem member)

namespace Holds

theorem nothing : (empty : Registry m).Holds [] where
  own _ _ := nofun
  first _ := rfl
  increasing := .nil
  listed _ := Table.mem_names_iff
  described := rfl
  counted := rfl

/-- **A registration that succeeds** is the last one then. -/
theorem register {r next : Registry m} {t : Tool m} {registered : List (Tool m)}
    (holds : r.Holds registered) (succeeds : r.register t = .ok next) :
    next.Holds (registered ++ [t]) := by
  obtain ⟨admissible, same⟩ := register_eq_ok_iff_admissible.1 succeeds
  have own : ∀ name u, next.get? name = some u → u.name = name := by
    intro name u found
    rw [get?_register succeeds] at found
    by_cases here : t.name = name
    · rw [if_pos here] at found
      exact Option.some.inj found ▸ here
    · rw [if_neg here] at found
      exact holds.own name u found
  have absent : r.get? t.name = none := by
    have free : (r.get? t.name).isSome = false := contains_eq_false_iff.2 admissible.new
    simpa using free
  refine ⟨own, ?_, next.pairwise_names, ?_, map_name_descriptors own, ?_⟩
  · intro name
    rw [get?_register succeeds, List.find?_append, ← holds.first]
    by_cases here : t.name = name
    · subst here
      rw [if_pos rfl, absent]
      simp
    · rw [if_neg here, List.find?_cons_of_neg (by simpa using here), List.find?_nil,
        Option.or_none]
  · intro name
    exact Table.mem_names_iff
  · rw [same, size, Table.size_insert]
    change (if (r.get? t.name).isSome = true then _ else _) = _
    rw [absent, List.length_append, ← holds.counted]
    rfl

/-- **Any sequence of registrations,** whichever of them are refused. -/
theorem offerAll {r : Registry m} {registered : List (Tool m)} (holds : r.Holds registered)
    (calls : List (Tool m)) : (r.offerAll calls).Holds (registered ++ r.accepted calls) := by
  induction calls generalizing r registered with
  | nil =>
    rw [accepted, List.append_nil]
    exact holds
  | cons t rest ih =>
    rw [accepted, Registry.offerAll, List.foldl_cons]
    cases registered : r.register t with
    | error error =>
      rw [offer_of_register_eq_error registered]
      exact ih holds
    | ok next =>
      rw [offer_of_register_eq_ok registered]
      have later := ih (holds.register registered)
      rw [List.append_assoc] at later
      exact later

end Holds

/-- Refused registrations leave no trace: those that succeed lead to the same registry by
themselves. -/
theorem registerAll_accepted (r : Registry m) (calls : List (Tool m)) :
    r.registerAll (r.accepted calls) = (r.offerAll calls, none) := by
  induction calls generalizing r with
  | nil => rfl
  | cons t rest ih =>
    rw [accepted, offerAll, List.foldl_cons]
    cases registered : r.register t with
    | error error =>
      rw [offer_of_register_eq_error registered]
      exact ih r
    | ok next =>
      rw [offer_of_register_eq_ok registered, registerAll_cons, registered]
      exact ih next

/-! ## The order of registrations -/

/-- A tool with another name does not change whether a tool is admissible. -/
theorem admissible_offer_iff {r : Registry m} {t u : Tool m} (distinct : t.name ≠ u.name) :
    (r.offer t).Admissible u ↔ r.Admissible u := by
  cases registered : r.register t with
  | error error => rw [offer_of_register_eq_error registered]
  | ok next =>
    rw [offer_of_register_eq_ok registered, admissible_iff, admissible_iff,
      contains_register registered distinct]

/-- **Two registrations of tools with different names** can be exchanged. -/
theorem offer_comm (r : Registry m) {t u : Tool m} (distinct : t.name ≠ u.name) :
    (r.offer t).offer u = (r.offer u).offer t := by
  have second := admissible_offer_iff (r := r) distinct
  have first := admissible_offer_iff (r := r) (Ne.symm distinct)
  by_cases tAdmissible : r.Admissible t
  · by_cases uAdmissible : r.Admissible u
    · rw [offer_of_admissible (second.2 uAdmissible), offer_of_admissible (first.2 tAdmissible),
        offer_of_admissible tAdmissible, offer_of_admissible uAdmissible]
      exact congrArg Registry.mk
        (Table.insert_comm t u tAdmissible.new uAdmissible.new distinct)
    · rw [offer_of_not_admissible (mt second.1 uAdmissible), offer_of_not_admissible uAdmissible]
  · rw [offer_of_not_admissible tAdmissible, offer_of_not_admissible (mt first.1 tAdmissible)]

/-- **Tools with names of their own** may be registered in any order. -/
theorem offerAll_eq_of_perm (r : Registry m) {calls others : List (Tool m)}
    (distinct : (calls.map Tool.name).Nodup) (same : calls.Perm others) :
    r.offerAll others = r.offerAll calls := by
  refine (same.foldl_eq' ?_ r).symm
  intro t tMember u uMember s
  by_cases one : t = u
  · rw [one]
  · apply offer_comm
    intro named
    exact one (List.inj_on_of_nodup_map distinct tMember uMember named)

/-- **What registering does.** A registration succeeds exactly when the tool is admissible, and
leaves the registry as it was when it fails, also to those who go on with it. After any sequence of registrations the registry
holds those that succeeded, as if the others had not been tried. The order of tools with names of
their own does not matter. -/
theorem registration_contract :
    (∀ (r : Registry m) (t : Tool m),
      ((∃ next, r.register t = .ok next) ↔ r.Admissible t) ∧
        (∀ next, r.register t = .ok next → r.offer t = next) ∧
        ∀ error, r.register t = .error error → r.offer t = r) ∧
    (∀ calls : List (Tool m),
      (empty.offerAll calls).Holds (empty.accepted calls) ∧
        empty.registerAll (empty.accepted calls) = (empty.offerAll calls, none)) ∧
    ∀ calls others : List (Tool m), (calls.map Tool.name).Nodup → calls.Perm others →
      (empty : Registry m).offerAll others = empty.offerAll calls := by
  refine ⟨fun r t => ⟨exists_register_iff, ?_, ?_⟩, fun calls => ⟨?_, ?_⟩, ?_⟩
  · exact fun next => offer_of_register_eq_ok
  · exact fun error => offer_of_register_eq_error
  · exact Holds.nothing.offerAll calls
  · exact registerAll_accepted empty calls
  · intro calls others distinct same
    exact offerAll_eq_of_perm empty distinct same

end Registry

/-- A tool that takes GLSL and gives nothing, with one number as its parameter. -/
def Tool.sample (name default : String) : Tool Id where
  descriptor := ⟨name, name, "", [Language.glsl], [], [⟨"Level", "", .int none none, default⟩]⟩
  compile _ _ := pure (.ok (.terminal []))

/-- A default that is no number and a name that is taken are refused, and the two tools that are
not may change places. -/
theorem registration_contract_refusals :
    let first : Tool Id := .sample "spirv" "1"
    let second : Tool Id := .sample "glsl" "2"
    let calls := [first, .sample "mali" "high", second, .sample "spirv" "3"]
    (∃ error, Registry.empty.register (.sample "mali" "high") = .error error ∧
      Registry.empty.offer (.sample "mali" "high") = Registry.empty) ∧
    ((Registry.empty.accepted calls).map Tool.descriptor = [first.descriptor, second.descriptor] ∧
      (Registry.empty.offerAll calls).Holds (Registry.empty.accepted calls)) ∧
    ([first, second].map Tool.name).Nodup ∧ [first, second].Perm [second, first] ∧
      Registry.empty.offerAll [second, first] = Registry.empty.offerAll [first, second] := by
  intro first second calls
  obtain ⟨once, sequences, orders⟩ := Registry.registration_contract (m := Id)
  have accepted : (Registry.empty.accepted calls).map Tool.descriptor =
      [first.descriptor, second.descriptor] := by
    decide +kernel
  have distinct : ([first, second].map Tool.name).Nodup := by decide
  have swapped : [first, second].Perm [second, first] := .swap ..
  exact ⟨⟨_, rfl, (once _ _).2.2 _ rfl⟩, ⟨accepted, (sequences calls).1⟩, distinct, swapped,
    orders _ _ distinct swapped⟩

end ShaderChain
