import Mathlib.Data.List.Basic
import ShaderChain.Proofs.Adapter.Complete
import ShaderChain.Proofs.Parameter.Exactness

/-!
# Versions that can be selected

The versions of a tool are computed once, from a configuration, and become the
values of a parameter; a version is bound only if it is one of them, and the
program of a step is looked up by the version that was bound. The look-up itself
takes any version and falls back on the program at `trunk` when there is no
directory of programs. That no step is ever run with another program than the
one selected rests on these parts agreeing: a version other than `trunk` can be
bound only when there is a directory (`directory_of_mem_versionsOf`), and then its
program is the one of that version below the directory
(`Toolchain.ProgramAt`, `bound_version_honoured`).
-/

set_option autoImplicit false

namespace ShaderChain

namespace Toolchain

/-! ## Which versions there are -/

/-- The items of a list that are not among others, each once, in the order in which they occur
first. -/
structure FirstOccurrences (others items : List String) (selection : List String) : Prop where
  mem_iff : ∀ item, item ∈ selection ↔ item ∈ items ∧ item ∉ others
  ordered : selection.Pairwise fun a b => items.idxOf a < items.idxOf b

namespace FirstOccurrences

variable {others items selection : List String} {item : String}

/-- An item that is not wanted does not matter. -/
theorem cons_of_mem (unwanted : item ∈ others)
    (first : FirstOccurrences others items selection) :
    FirstOccurrences others (item :: items) selection := by
  have differs : ∀ a ∈ selection, item ≠ a := by
    rintro a member rfl
    exact ((first.mem_iff item).1 member).2 unwanted
  constructor
  · intro a
    rw [first.mem_iff, List.mem_cons]
    constructor
    · exact fun ⟨listed, wanted⟩ => ⟨.inr listed, wanted⟩
    · rintro ⟨rfl | listed, wanted⟩
      · exact absurd unwanted wanted
      · exact ⟨listed, wanted⟩
  · refine first.ordered.imp_of_mem fun {a b} aMember bMember less => ?_
    rw [List.idxOf_cons_ne _ (differs a aMember), List.idxOf_cons_ne _ (differs b bMember)]
    exact Nat.succ_lt_succ less

/-- An item that is wanted occurs first if it stands first, and is not wanted again. -/
theorem cons_of_not_mem (wanted : item ∉ others)
    (first : FirstOccurrences (others ++ [item]) items selection) :
    FirstOccurrences others (item :: items) (item :: selection) := by
  have differs : ∀ a ∈ selection, item ≠ a := by
    rintro a member rfl
    exact ((first.mem_iff item).1 member).2 (List.mem_append_right _ (List.mem_singleton_self item))
  constructor
  · intro a
    rw [List.mem_cons, List.mem_cons, first.mem_iff, List.mem_append, List.mem_singleton]
    by_cases same : a = item
    · subst same
      exact ⟨fun _ => ⟨.inl rfl, wanted⟩, fun _ => .inl rfl⟩
    · simp only [same, false_or, or_false]
  · refine List.pairwise_cons.2 ⟨fun a member => ?_, ?_⟩
    · rw [List.idxOf_cons_self, List.idxOf_cons_ne _ (differs a member)]
      exact Nat.succ_pos _
    · refine first.ordered.imp_of_mem fun {a b} aMember bMember less => ?_
      rw [List.idxOf_cons_ne _ (differs a aMember), List.idxOf_cons_ne _ (differs b bMember)]
      exact Nat.succ_lt_succ less

/-- No item is selected twice. -/
theorem nodup (first : FirstOccurrences others items selection) : selection.Nodup := by
  apply first.ordered.imp
  rintro a b less rfl
  exact Nat.lt_irrefl _ less

end FirstOccurrences

/-- What is appended are the first occurrences of what was not there. -/
theorem exists_appendNew (seen more : List String) :
    ∃ new, appendNew seen more = seen ++ new ∧ FirstOccurrences seen more new := by
  induction more generalizing seen with
  | nil => exact ⟨[], (List.append_nil seen).symm, by simp, .nil⟩
  | cons item rest ih =>
    rw [appendNew]
    by_cases member : item ∈ seen
    · rw [if_pos (List.contains_iff_mem.2 member)]
      obtain ⟨new, same, first⟩ := ih seen
      exact ⟨new, same, first.cons_of_mem member⟩
    · rw [if_neg (mt List.contains_iff_mem.1 member)]
      obtain ⟨new, same, first⟩ := ih (seen ++ [item])
      refine ⟨item :: new, ?_, first.cons_of_not_mem member⟩
      rw [same, List.append_assoc, List.singleton_append]

/-- **The versions of a tool** are `trunk` and those listed for it, each once and in the order in
which they are listed first. -/
theorem exists_versionsOf (t : Toolchain) (tool : String) :
    ∃ others, t.versionsOf tool = trunk :: others ∧
      FirstOccurrences [trunk] (t.listedVersions tool) others :=
  exists_appendNew [trunk] (t.listedVersions tool)

theorem nodup_versionsOf (t : Toolchain) (tool : String) : (t.versionsOf tool).Nodup := by
  obtain ⟨others, same, first⟩ := t.exists_versionsOf tool
  rw [same]
  refine List.nodup_cons.2 ⟨fun member => ?_, first.nodup⟩
  exact ((first.mem_iff trunk).1 member).2 (List.mem_singleton_self trunk)

/-- Another version than `trunk` needs a directory of programs. -/
theorem directory_of_mem_versionsOf {t : Toolchain} {tool version : String}
    (member : version ∈ t.versionsOf tool) (other : version ≠ trunk) :
    ∃ dir, t.binariesDir = some dir := by
  obtain ⟨others, same, first⟩ := t.exists_versionsOf tool
  rw [same] at member
  have listed := ((first.mem_iff version).1 ((List.mem_cons.1 member).resolve_left other)).1
  rw [listedVersions] at listed
  split at listed
  case isTrue directory => exact Option.isSome_iff_exists.1 directory
  case isFalse => cases listed

/-! ## Which program a version has -/

/-- Where the program of a tool at a version is: the one configured for the tool serves `trunk`
only; every other version has a directory of its own. -/
inductive ProgramAt (t : Toolchain) (tool usual : String) : String → Path → Prop where
  | version {dir : Path} {version : String} (other : version ≠ trunk)
      (directory : t.binariesDir = some dir) :
      ProgramAt t tool usual version (((dir.child tool).child version).child usual)
  | configured {program : Path} (override : t.executables.get? tool = some program) :
      ProgramAt t tool usual trunk program
  | inDirectory {dir : Path} (free : t.executables.get? tool = none)
      (directory : t.binariesDir = some dir) : ProgramAt t tool usual trunk (dir.child usual)
  | anywhere (free : t.executables.get? tool = none) (nowhere : t.binariesDir = none) :
      ProgramAt t tool usual trunk ⟨usual⟩

theorem programAt_executable (t : Toolchain) (tool usual : String) :
    t.ProgramAt tool usual trunk (t.executable tool usual) := by
  rw [executable]
  cases override : t.executables.get? tool with
  | some program => exact .configured override
  | none =>
    cases directory : t.binariesDir with
    | some dir => exact .inDirectory override directory
    | none => exact .anywhere override directory

theorem versioned_trunk (t : Toolchain) (tool usual : String) :
    t.versioned tool usual trunk = t.executable tool usual := by
  have notOther : (t.binariesDir.filter fun _ => trunk != trunk) = none := by
    rw [bne_self_eq_false]
    cases t.binariesDir <;> rfl
  rw [versioned, notOther]

/-- The look-up does not fall back for a version that can be selected. -/
theorem programAt_versioned {t : Toolchain} {tool usual version : String}
    (member : version ∈ t.versionsOf tool) :
    t.ProgramAt tool usual version (t.versioned tool usual version) := by
  by_cases same : version = trunk
  · subst same
    rw [versioned_trunk]
    exact t.programAt_executable tool usual
  · obtain ⟨dir, directory⟩ := directory_of_mem_versionsOf member same
    have isOther : (version != trunk) = true := bne_iff_ne.2 same
    rw [versioned, directory, isOther]
    exact .version same directory

theorem program_of_string {t : Toolchain} {tool usual version : String} {args : BoundArguments}
    (bound : args.string versionName = .ok version) :
    t.program tool usual args = .ok (t.versioned tool usual version) := by
  rw [program, bound]
  cases found : args.get? versionName with
  | none =>
    rw [BoundArguments.string, BoundArguments.typed_of_none _ _ found] at bound
    cases bound
  | some value => rfl

/-! ## Which versions can be bound -/

theorem parse_versionParameter_eq_ok_iff {t : Toolchain} {tool raw : String} {value : ArgumentValue} :
    (t.versionParameter tool).parse raw = .ok value ↔
      raw ∈ t.versionsOf tool ∧ value = .string raw := by
  change (ParameterKind.parseListed "enum" (t.versionsOf tool) raw).mapError _ = _ ↔ _
  rw [ParameterKind.parseListed]
  by_cases listed : raw ∈ t.versionsOf tool
  · rw [if_pos (List.contains_iff_mem.2 listed)]
    simp [Except.mapError, listed, eq_comm]
  · rw [if_neg (mt List.contains_iff_mem.1 listed)]
    simp [Except.mapError, listed]

/-- Arguments with a version are bound exactly when the others are and the version, `trunk` if none
is given, can be selected. -/
theorem exists_bind_version_iff {t : Toolchain} {tool : String} {schema : List Parameter}
    {raw : Table String} :
    (∃ args, bind (schema ++ [t.versionParameter tool]) raw = .ok args) ↔
      (∀ p ∈ schema, p.Takes raw) ∧ (raw.get? versionName).getD trunk ∈ t.versionsOf tool := by
  have version : (t.versionParameter tool).Takes raw ↔
      (raw.get? versionName).getD trunk ∈ t.versionsOf tool := by
    constructor
    · rintro ⟨value, parsed⟩
      exact (parse_versionParameter_eq_ok_iff.1 parsed).1
    · intro listed
      exact ⟨_, parse_versionParameter_eq_ok_iff.2 ⟨listed, rfl⟩⟩
  rw [exists_bind_iff, List.forall_mem_append, List.forall_mem_singleton, ← version]
  rfl

/-- The version that is bound. -/
theorem string_of_bind_version {t : Toolchain} {tool : String} {schema : List Parameter}
    {raw : Table String} {args : BoundArguments}
    (distinct : ((schema ++ [t.versionParameter tool]).map Parameter.name).Nodup)
    (bound : bind (schema ++ [t.versionParameter tool]) raw = .ok args) :
    args.string versionName = .ok ((raw.get? versionName).getD trunk) := by
  obtain ⟨value, parsed, found, _⟩ :=
    reads_of_bind bound distinct (List.mem_append_right _ (List.mem_singleton_self _))
  obtain ⟨_, rfl⟩ := parse_versionParameter_eq_ok_iff.1 parsed
  exact BoundArguments.typed_of_get? _ _ found

end Toolchain

/-- What a configuration, the schema of a tool and the look-up of its program agree on. -/
structure Toolchain.Honours (t : Toolchain) (tool usual : String) (schema : List Parameter) :
    Prop where
  /-- The versions are `trunk` and, if there is a directory of programs, those configured, in the
  order in which they are configured first. -/
  versions : ∃ others, t.versionsOf tool = trunk :: others ∧
    FirstOccurrences [trunk]
      (if t.binariesDir.isSome then (t.versions.get? tool).getD [] else []) others
  distinct : (t.versionsOf tool).Nodup
  /-- With valid other arguments, exactly the versions of the tool are accepted. -/
  accepts : ∀ raw version, (∀ p ∈ schema, p.name ≠ versionName → p.Takes raw) →
    raw.get? versionName = some version →
      ((∃ args, bind schema raw = .ok args) ↔ version ∈ t.versionsOf tool)
  /-- With valid other arguments and no version, `trunk` is bound. -/
  defaults : ∀ raw, (∀ p ∈ schema, p.name ≠ versionName → p.Takes raw) →
    raw.get? versionName = none →
      ∃ args, bind schema raw = .ok args ∧ args.string versionName = .ok trunk
  /-- The program is that of the version that was bound. -/
  runs : ∀ raw args, bind schema raw = .ok args → ∃ version program,
    args.string versionName = .ok version ∧ version ∈ t.versionsOf tool ∧
      t.program tool usual args = .ok program ∧ t.ProgramAt tool usual version program ∧
        (version = trunk → program = t.executable tool usual)

/-- A schema that ends with the selector of a tool's versions is honoured. -/
theorem Toolchain.honours_withVersions (t : Toolchain) (tool usual : String)
    {schema : List Parameter} (fresh : versionName ∉ schema.map Parameter.name)
    (distinct : ((schema ++ [t.versionParameter tool]).map Parameter.name).Nodup) :
    t.Honours tool usual (schema ++ [t.versionParameter tool]) := by
  have others : ∀ {raw : Table String},
      (∀ p ∈ schema ++ [t.versionParameter tool], p.name ≠ versionName → p.Takes raw) →
        ∀ p ∈ schema, p.Takes raw := by
    intro raw takes p member
    refine takes p (List.mem_append_left _ member) fun same => ?_
    exact fresh (same ▸ List.mem_map_of_mem member)
  refine ⟨t.exists_versionsOf tool, t.nodup_versionsOf tool, ?_, ?_, ?_⟩
  · intro raw version takes given
    rw [exists_bind_version_iff, given]
    exact and_iff_right (others takes)
  · intro raw takes missing
    have selectable : (raw.get? versionName).getD trunk ∈ t.versionsOf tool := by
      rw [missing]
      exact t.trunk_mem_versionsOf tool
    obtain ⟨args, bound⟩ := exists_bind_version_iff.2 ⟨others takes, selectable⟩
    have version := string_of_bind_version distinct bound
    rw [missing] at version
    exact ⟨args, bound, version⟩
  · intro raw args bound
    have version := string_of_bind_version distinct bound
    have selectable := (exists_bind_version_iff.1 ⟨args, bound⟩).2
    refine ⟨_, _, version, selectable, program_of_string version, programAt_versioned selectable, ?_⟩
    intro isTrunk
    rw [isTrunk, versioned_trunk]

/-- **A version that is bound is honoured,** for every configuration, every built-in tool and
whatever its program is usually called. -/
theorem bound_version_honoured {m : Type → Type} [Monad m] (tools : ToolsSection) (host : Host m)
    (tool : Tool m) (usual : String) (builtin : tool ∈ Adapter.builtin (.ofSection tools) host) :
    (Toolchain.ofSection tools).Honours tool.name usual tool.descriptor.parameters := by
  obtain ⟨d, isAdapter, same⟩ := Adapter.descriptor_of_mem_builtin builtin
  have fresh := (Adapter.wellFormed_descriptors d isAdapter).2
  have distinct := (Adapter.wellFormed_of_mem_builtin builtin).distinct
  rw [same] at distinct
  rw [Tool.name, same]
  exact Toolchain.honours_withVersions _ d.name usual fresh distinct

/-- A tool with a program of its own and a list of versions that names `trunk` and one version
twice. -/
theorem bound_version_honoured_repeated :
    let tools : ToolsSection :=
      ⟨some ⟨"/opt/tools"⟩, 30, Table.empty.insert "mali" ⟨"/usr/bin/malioc-7"⟩,
        Table.empty.insert "mali" ["6.2", "trunk", "7.1", "6.2"]⟩
    let t := Toolchain.ofSection tools
    let mali := Adapter.Mali.tool t Host.failing
    mali ∈ Adapter.builtin t Host.failing ∧
      t.Honours "mali" "malioc" mali.descriptor.parameters ∧
      t.versionsOf "mali" = ["trunk", "6.2", "7.1"] ∧
      ∃ args, bind mali.descriptor.parameters (Table.empty.insert "Version" "6.2") = .ok args ∧
        t.program "mali" "malioc" args = .ok ⟨"/opt/tools/mali/6.2/malioc"⟩ := by
  intro tools t mali
  have member : mali ∈ Adapter.builtin t Host.failing := by simp [Adapter.builtin, mali]
  refine ⟨member, bound_version_honoured tools Host.failing mali "malioc" member, ?_, ?_⟩
  · decide +kernel
  · exact ⟨_, rfl, by decide +kernel⟩

end ShaderChain
