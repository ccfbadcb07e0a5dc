import ShaderChain.Proofs.Parameter.Binding
import ShaderChain.Registry

/-!
# The registries that registering leads to

A descriptor is well formed when it has a name, takes a language, declares each
parameter once, selects only languages it declares, and has defaults that its
parameters take. The checks of a descriptor find no fault exactly in the well
formed ones (`ToolDescriptor.fault?_eq_none_iff`).

A sequence of attempts to register tools, some of which may be refused, leads to
a registry in which every tool stands under its own name and is well formed
(`Registry.Sound.offerAll`). Refused attempts leave the registry as it was.
-/

set_option autoImplicit false

namespace ShaderChain

/-! ## Well-formed descriptors -/

/-- The languages that a parameter selects from are among those given. -/
def Parameter.SelectsAmong (languages : List String) (p : Parameter) : Prop :=
  ∀ language ∈ p.outputLanguages?.getD [], language ∈ languages

/-- A descriptor without a fault. -/
structure ToolDescriptor.WellFormed (d : ToolDescriptor) : Prop where
  named : Text.isBlankText d.name = false
  takes : d.inputLanguages ≠ []
  distinct : (d.parameters.map Parameter.name).Nodup
  declared : ∀ p ∈ d.parameters, p.SelectsAmong d.outputLanguages
  defaults : ∃ args, bind d.parameters .empty = .ok args

namespace ToolDescriptor

variable {d : ToolDescriptor}

theorem find?_undeclared_eq_none_iff {p : Parameter} :
    (p.outputLanguages?.getD []).find? (! d.outputLanguages.contains ·) = none ↔
      p.SelectsAmong d.outputLanguages := by
  simp [Parameter.SelectsAmong]

/-- The parameters have no fault exactly when their names are new and distinct and they select
declared languages. -/
theorem parameterFault?_eq_none_iff {seen : List String} {parameters : List Parameter} :
    d.parameterFault? seen parameters = none ↔
      (∀ p ∈ parameters, p.name ∉ seen) ∧ (parameters.map Parameter.name).Nodup ∧
        ∀ p ∈ parameters, p.SelectsAmong d.outputLanguages := by
  induction parameters generalizing seen with
  | nil => simp [parameterFault?]
  | cons p rest ih =>
    rw [parameterFault?]
    by_cases repeated : seen.contains p.name
    · rw [if_pos repeated]
      constructor
      · intro fault
        cases fault
      · rintro ⟨fresh, _, _⟩
        exact (fresh p List.mem_cons_self (List.contains_iff_mem.1 repeated)).elim
    · rw [if_neg repeated]
      cases undeclared : (p.outputLanguages?.getD []).find? (! d.outputLanguages.contains ·) with
      | some language =>
        constructor
        · intro fault
          cases fault
        · rintro ⟨_, _, declared⟩
          rw [find?_undeclared_eq_none_iff.2 (declared p List.mem_cons_self)] at undeclared
          cases undeclared
      | none =>
        have selects := find?_undeclared_eq_none_iff.1 undeclared
        simp only [ih, List.mem_cons, List.map_cons, List.nodup_cons, List.mem_map,
          forall_eq_or_imp, not_or]
        constructor
        · rintro ⟨fresh, distinct, declared⟩
          refine ⟨⟨fun listed => repeated (List.contains_iff_mem.2 listed), ?_⟩, ⟨?_, distinct⟩,
            selects, declared⟩
          · intro q member
            exact (fresh q member).2
          · rintro ⟨q, member, same⟩
            exact (fresh q member).1 same
        · rintro ⟨⟨_, fresh⟩, ⟨single, distinct⟩, _, declared⟩
          refine ⟨fun q member => ⟨fun same => single ⟨q, member, same⟩, fresh q member⟩,
            distinct, declared⟩

/-- **The checks find no fault exactly in the well-formed descriptors.** -/
theorem fault?_eq_none_iff : d.fault? = none ↔ d.WellFormed := by
  rw [fault?]
  constructor
  · intro fault
    by_cases blank : Text.isBlankText d.name
    · rw [if_pos blank] at fault
      cases fault
    · rw [if_neg blank] at fault
      by_cases noInputs : d.inputLanguages.isEmpty
      · rw [if_pos noInputs] at fault
        cases fault
      · rw [if_neg noInputs] at fault
        cases parameters : d.parameterFault? [] d.parameters with
        | some found => rw [parameters] at fault; cases fault
        | none =>
          rw [parameters] at fault
          obtain ⟨_, distinct, declared⟩ := parameterFault?_eq_none_iff.1 parameters
          cases defaults : bind d.parameters .empty with
          | error error => rw [defaults] at fault; cases fault
          | ok args =>
            exact ⟨by simpa using blank, by simpa using noInputs, distinct, declared, args, defaults⟩
  · rintro ⟨named, takes, distinct, declared, args, defaults⟩
    have parameters : d.parameterFault? [] d.parameters = none :=
      parameterFault?_eq_none_iff.2 ⟨fun _ _ => List.not_mem_nil, distinct, declared⟩
    rw [if_neg (by simp [named]), if_neg (by simpa using takes), parameters, defaults]

end ToolDescriptor

/-! ## Attempts to register -/

namespace Registry

variable {m : Type → Type}

/-- The registry after a sequence of attempts. -/
def offerAll (r : Registry m) (tools : List (Tool m)) : Registry m := tools.foldl offer r

/-- Every tool stands under its own name, and is well formed. -/
def Sound (r : Registry m) : Prop :=
  ∀ name t, r.get? name = some t → t.name = name ∧ t.descriptor.WellFormed

theorem sound_empty : (empty : Registry m).Sound := by
  intro name t found
  cases found

theorem fault?_eq_none_iff {r : Registry m} {t : Tool m} :
    r.fault? t = none ↔ t.descriptor.WellFormed ∧ r.contains t.name = false := by
  rw [fault?, ← ToolDescriptor.fault?_eq_none_iff]
  cases t.descriptor.fault? with
  | some fault => simp
  | none => simp

/-- What registering a tool comes to: the answer, and the registry then. -/
theorem run_enrol (r : Registry m) (t : Tool m) :
    (enrol t).run.run r =
      match r.fault? t with
      | some fault => (.error (.invalidTool fault.message), r)
      | none => (.ok (), ⟨r.tools.insert t.name t⟩) := by
  have begins : (enrol t).run.run r = StateT.run (ExceptT.run (match r.fault? t with
      | some fault => throw (.invalidTool fault.message)
      | none => modify fun r => ⟨r.tools.insert t.name t⟩ :
        ExceptT PipelineError (StateM (Registry m)) Unit)) r := rfl
  rw [begins]
  cases r.fault? t with
  | some fault => rfl
  | none => rfl

/-- A registration that succeeds puts the tool under its name, which was free, and changes nothing
else. -/
theorem register_eq_ok_iff {r next : Registry m} {t : Tool m} :
    r.register t = .ok next ↔
      t.descriptor.WellFormed ∧ r.contains t.name = false ∧ next = ⟨r.tools.insert t.name t⟩ := by
  rw [register, run_enrol, ← and_assoc, ← fault?_eq_none_iff]
  cases r.fault? t with
  | some fault => simp
  | none => simp [eq_comm]

/-- An attempt that succeeds leads to the registry with the tool. -/
theorem offer_of_register_eq_ok {r next : Registry m} {t : Tool m}
    (registered : r.register t = .ok next) : r.offer t = next := by
  rw [register, run_enrol] at registered
  rw [offer, run_enrol]
  cases isFault : r.fault? t with
  | some fault =>
    rw [isFault] at registered
    cases registered
  | none =>
    rw [isFault] at registered
    cases registered
    rfl

/-- **An attempt that is refused** leaves the registry as it was. -/
theorem offer_of_register_eq_error {r : Registry m} {t : Tool m} {error : PipelineError}
    (refused : r.register t = .error error) : r.offer t = r := by
  rw [register, run_enrol] at refused
  rw [offer, run_enrol]
  cases isFault : r.fault? t with
  | some fault => rfl
  | none =>
    rw [isFault] at refused
    cases refused

/-- Registering several tools goes on behind one that is registered, and stops at one that is
refused. -/
theorem registerAll_cons (r : Registry m) (t : Tool m) (rest : List (Tool m)) :
    r.registerAll (t :: rest) =
      match r.register t with
      | .error error => (r, some error)
      | .ok next => next.registerAll rest := by
  rw [registerAll, register, run_enrol]
  cases r.fault? t with
  | some fault => rfl
  | none => rfl

theorem get?_register {r next : Registry m} {t : Tool m} (registered : r.register t = .ok next)
    (name : String) : next.get? name = if t.name = name then some t else r.get? name := by
  obtain ⟨_, _, rfl⟩ := register_eq_ok_iff.1 registered
  by_cases same : t.name = name
  · subst same
    rw [if_pos rfl]
    exact Table.get?_insert_self _ _ _
  · rw [if_neg same]
    exact Table.get?_insert_of_ne _ _ same

theorem contains_register {r next : Registry m} {t : Tool m} (registered : r.register t = .ok next)
    {name : String} (other : t.name ≠ name) : next.contains name = r.contains name := by
  have found := get?_register registered name
  rw [if_neg other] at found
  exact congrArg Option.isSome found

theorem Sound.register {r next : Registry m} {t : Tool m} (sound : r.Sound)
    (registered : r.register t = .ok next) : next.Sound := by
  intro name found isFound
  rw [get?_register registered] at isFound
  by_cases same : t.name = name
  · rw [if_pos same] at isFound
    cases isFound
    exact ⟨same, (register_eq_ok_iff.1 registered).1⟩
  · rw [if_neg same] at isFound
    exact sound name found isFound

theorem Sound.offer {r : Registry m} (sound : r.Sound) (t : Tool m) : (r.offer t).Sound := by
  cases registered : r.register t with
  | error error => exact (offer_of_register_eq_error registered).symm ▸ sound
  | ok next => exact (offer_of_register_eq_ok registered).symm ▸ sound.register registered

/-- **Registering keeps a registry sound,** whichever tools are offered and refused. -/
theorem Sound.offerAll {r : Registry m} (sound : r.Sound) (tools : List (Tool m)) :
    (r.offerAll tools).Sound := by
  induction tools generalizing r with
  | nil => exact sound
  | cons t rest ih => exact ih (sound.offer t)

/-- A tool of the registry after a registration is the new one or was there before. -/
theorem mem_of_get?_register {r next : Registry m} {s t : Tool m} {name : String}
    (registered : r.register t = .ok next) (found : next.get? name = some s) :
    r.get? name = some s ∨ s = t := by
  rw [get?_register registered] at found
  by_cases same : t.name = name
  · rw [if_pos same] at found
    exact .inr (Option.some.inj found).symm
  · rw [if_neg same] at found
    exact .inl found

/-- Attempts to register tools bring no others into the registry. -/
theorem mem_of_get?_offerAll {r : Registry m} {tools : List (Tool m)} {name : String}
    {s : Tool m} (found : (r.offerAll tools).get? name = some s) :
    r.get? name = some s ∨ s ∈ tools := by
  induction tools generalizing r with
  | nil => exact .inl found
  | cons t rest ih =>
    rcases ih found with before | later
    · cases registered : r.register t with
      | error error =>
        rw [offer_of_register_eq_error registered] at before
        exact .inl before
      | ok next =>
        rw [offer_of_register_eq_ok registered] at before
        rcases mem_of_get?_register registered before with earlier | rfl
        · exact .inl earlier
        · exact .inr List.mem_cons_self
    · exact .inr (List.mem_cons_of_mem _ later)

/-- Registering up to the first refusal attempts to register some of the tools. -/
theorem exists_offerAll_eq_registerAll (r : Registry m) (tools : List (Tool m)) :
    ∃ accepted, accepted <+: tools ∧ (r.registerAll tools).1 = r.offerAll accepted := by
  induction tools generalizing r with
  | nil => exact ⟨[], List.nil_prefix, rfl⟩
  | cons t rest ih =>
    rw [registerAll_cons]
    cases registered : r.register t with
    | error error => exact ⟨[], List.nil_prefix, rfl⟩
    | ok next =>
      obtain ⟨accepted, isPrefix, same⟩ := ih next
      refine ⟨t :: accepted, List.cons_prefix_cons.2 ⟨rfl, isPrefix⟩, ?_⟩
      rw [offerAll, List.foldl_cons, offer_of_register_eq_ok registered]
      exact same

/-- Well-formed tools with names of their own are all registered. -/
theorem registerAll_of_wellFormed {r : Registry m} {tools : List (Tool m)}
    (wellFormed : ∀ t ∈ tools, t.descriptor.WellFormed) (distinct : (tools.map Tool.name).Nodup)
    (free : ∀ t ∈ tools, r.contains t.name = false) : (r.registerAll tools).2 = none := by
  induction tools generalizing r with
  | nil => rfl
  | cons t rest ih =>
    obtain ⟨single, distinctLater⟩ := List.nodup_cons.1 distinct
    have registered : r.register t = .ok ⟨r.tools.insert t.name t⟩ :=
      register_eq_ok_iff.2 ⟨wellFormed t List.mem_cons_self, free t List.mem_cons_self, rfl⟩
    rw [registerAll_cons, registered]
    refine ih (fun s member => wellFormed s (List.mem_cons_of_mem _ member)) distinctLater ?_
    intro s member
    have other : t.name ≠ s.name := fun same => single (same ▸ List.mem_map_of_mem member)
    rw [contains_register registered other]
    exact free s (List.mem_cons_of_mem _ member)

end Registry

end ShaderChain
