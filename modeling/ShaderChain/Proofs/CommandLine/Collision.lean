import ShaderChain.Adapter.Builtin
import ShaderChain.Proofs.CommandLine.OutputFiles
import ShaderChain.Proofs.Host.Event
import ShaderChain.Proofs.Workspace

/-!
# Output files that stay apart

Every file of a run has a source: the artifact of a step or one of its outputs
(`Source`). The files are written in the order of their sources, into the
directory and nowhere else (`Leaves`), whatever the tools, the outputs and their
languages are called.

Two sources have the same file exactly when they are outputs of one step whose
names have the same form and whose files have the same extension (`Clash`). The
number of the step can be told from the name of a file, though the forms of
names have digits and dashes too; and a form has no point, so what stands before
the first point behind the start of the name is the form. Where no sources clash,
every file holds what its source gave it in the end. The results of the built-in
tools have no outputs that clash.
-/

set_option autoImplicit false

namespace ShaderChain.CommandLine

/-! ## Sources -/

/-- What a file of a run comes from: the artifact of a step or one of its outputs. -/
inductive Source where
  | artifact (index : Nat) (tool : String) (a : Artifact)
  | output (index : Nat) (tool : String) (o : StepOutput)

namespace Source

/-- The step. -/
def index : Source → Nat
  | artifact index _ _ => index
  | output index _ _ => index

/-- The name of the file. -/
def name : Source → String
  | artifact index tool a => artifactName (stepPart index tool) a
  | output index tool o => outputName (stepPart index tool) o

/-- What the file is to hold. -/
def bytes : Source → Bytes
  | artifact _ _ a => a.payload.bytes
  | output _ _ o => o.value.bytes

/-- The path of the file in a directory. -/
def path (dir : Path) (source : Source) : Path := dir.join ⟨source.name⟩

/-- The request that writes the file. -/
def request (dir : Path) (source : Source) : Host.Request := .write (source.path dir) source.bytes

/-- The sources of a step: its artifact, if it has one, and its outputs. -/
def ofStep (index : Nat) (step : Step) (result : StepResult) : List Source :=
  result.pipeable.toList.map (artifact index step.tool) ++
    result.outputs.map (output index step.tool)

/-- The sources of a run whose first step has the given index. -/
def ofRun (start : Nat) (pairs : List (Step × StepResult)) : List Source :=
  (pairs.zipIdx start).flatMap fun (pair, index) => ofStep index pair.1 pair.2

theorem ofRun_cons (start : Nat) (pair : Step × StepResult) (rest : List (Step × StepResult)) :
    ofRun start (pair :: rest) = ofStep start pair.1 pair.2 ++ ofRun (start + 1) rest := rfl

theorem index_of_mem_ofStep {index : Nat} {step : Step} {result : StepResult} {source : Source}
    (member : source ∈ ofStep index step result) : source.index = index := by
  rcases List.mem_append.1 member with isArtifact | isOutput
  · obtain ⟨a, _, rfl⟩ := List.mem_map.1 isArtifact
    rfl
  · obtain ⟨o, _, rfl⟩ := List.mem_map.1 isOutput
    rfl

theorem le_index_of_mem_ofRun {start : Nat} {pairs : List (Step × StepResult)} {source : Source}
    (member : source ∈ ofRun start pairs) : start ≤ source.index := by
  induction pairs generalizing start with
  | nil => contradiction
  | cons pair rest ih =>
    rw [ofRun_cons] at member
    rcases List.mem_append.1 member with here | later
    · exact Nat.le_of_eq (index_of_mem_ofStep here).symm
    · exact Nat.le_of_succ_le (ih later)

/-- What holds of any two sources of one step, and of any two of different steps, holds of any two
of a run. -/
theorem pairwise_ofRun {related : Source → Source → Prop} {start : Nat}
    {pairs : List (Step × StepResult)}
    (within : ∀ pair ∈ pairs, ∀ index, (ofStep index pair.1 pair.2).Pairwise related)
    (across : ∀ a b : Source, a.index ≠ b.index → related a b) :
    (ofRun start pairs).Pairwise related := by
  induction pairs generalizing start with
  | nil => exact List.Pairwise.nil
  | cons pair rest ih =>
    obtain ⟨here, within⟩ := List.forall_mem_cons.1 within
    rw [ofRun_cons]
    refine List.pairwise_append.2 ⟨here start, ih within, fun a inStep b later => across a b ?_⟩
    have isStart := index_of_mem_ofStep inStep
    have isLater := le_index_of_mem_ofRun later
    omega

/-- The name of a source's file belongs to its step. -/
theorem ofStep_name (source : Source) : OfStep source.index source.name := by
  cases source with
  | artifact index tool a => exact ofStep_artifactName index tool a
  | output index tool o => exact ofStep_outputName index tool o

theorem isName (source : Source) : Path.IsName source.name := source.ofStep_name.isName

end Source

theorem stepFiles_eq_map (index : Nat) (step : Step) (result : StepResult) :
    stepFiles index step.tool result =
      (Source.ofStep index step result).map fun source => (source.name, source.bytes) := by
  rw [stepFiles, Source.ofStep, List.map_append, List.map_map, List.map_map]
  cases result.pipeable with
  | none => rfl
  | some a => rfl

/-- The files of a run are those of its sources, in order. -/
theorem runFiles_eq_map (start : Nat) (pairs : List (Step × StepResult)) :
    runFiles start pairs =
      (Source.ofRun start pairs).map fun source => (source.name, source.bytes) := by
  induction pairs generalizing start with
  | nil => rfl
  | cons pair rest ih =>
    rw [runFiles, Source.ofRun_cons, List.map_append, ← stepFiles_eq_map, ih]

/-! ## Clashes -/

/-- Whether two outputs of one step have one file: their names have the same form, and their files
the same extension. -/
def SharesFile (o other : StepOutput) : Prop :=
  slug o.displayName = slug other.displayName ∧ outputExtension o = outputExtension other

/-- Two sources that have one file are outputs of one step. -/
inductive Source.Clash : Source → Source → Prop where
  | outputs (index : Nat) (tool : String) {o other : StepOutput} (shares : SharesFile o other) :
      Clash (.output index tool o) (.output index tool other)

/-- A result no two outputs of which have one file. -/
def ClashFree (result : StepResult) : Prop :=
  result.outputs.Pairwise fun o other => ¬ SharesFile o other

/-- The name of an output's file tells the form of its name and its extension: the form has no
point. -/
theorem outputName_eq_iff {start : String} {o other : StepOutput} :
    outputName start o = outputName start other ↔ SharesFile o other := by
  constructor
  · intro same
    have texts := congrArg String.toList same
    simp only [outputName, String.toList_append, List.append_assoc] at texts
    have rests := List.append_cancel_left (List.append_cancel_left texts)
    have cut (o : StepOutput) :
        Text.splitFirst? '.' ((slug o.displayName).toList ++
            (".".toList ++ (outputExtension o).toList)) =
          some ((slug o.displayName).toList, (outputExtension o).toList) :=
      Text.splitFirst?_append _ fun member => (plain_slug member).2 rfl
    have parts := (cut o).symm.trans ((congrArg (Text.splitFirst? '.') rests).trans (cut other))
    obtain ⟨forms, extensions⟩ := Prod.mk.inj (Option.some.inj parts)
    exact ⟨String.toList_inj.1 forms, String.toList_inj.1 extensions⟩
  · rintro ⟨forms, extensions⟩
    rw [outputName, outputName, forms, extensions]

namespace Source

theorem Clash.symm {a b : Source} (clash : a.Clash b) : b.Clash a := by
  cases clash with
  | outputs index tool shares => exact .outputs index tool ⟨shares.1.symm, shares.2.symm⟩

theorem Clash.index_eq {a b : Source} (clash : a.Clash b) : a.index = b.index := by
  cases clash
  rfl

theorem clash_output_iff {index : Nat} {tool : String} {o other : StepOutput} :
    (output index tool o).Clash (output index tool other) ↔ SharesFile o other := by
  constructor
  · rintro ⟨⟩
    assumption
  · exact .outputs index tool

/-- Any two sources of a step have the same name exactly when they clash. -/
theorem pairwise_name_ofStep (index : Nat) (step : Step) (result : StepResult) :
    (ofStep index step result).Pairwise fun a b => a.name = b.name ↔ a.Clash b := by
  refine List.pairwise_append.2 ⟨?_, ?_, ?_⟩
  · cases result.pipeable with
    | none => exact List.Pairwise.nil
    | some a => exact List.pairwise_singleton _ _
  · rw [List.pairwise_map]
    exact List.pairwise_of_forall fun _ _ => outputName_eq_iff.trans clash_output_iff.symm
  · intro a isArtifact b isOutput
    obtain ⟨artifact, _, rfl⟩ := List.mem_map.1 isArtifact
    obtain ⟨o, _, rfl⟩ := List.mem_map.1 isOutput
    exact ⟨fun same => absurd same.symm (outputName_ne_artifactName _ o artifact), nofun⟩

/-- **Any two sources of a run have the same name exactly when they clash.** -/
theorem pairwise_name_ofRun (start : Nat) (pairs : List (Step × StepResult)) :
    (ofRun start pairs).Pairwise fun a b => a.name = b.name ↔ a.Clash b := by
  refine pairwise_ofRun (fun pair _ index => pairwise_name_ofStep index pair.1 pair.2) ?_
  intro a b apart
  refine ⟨fun same => absurd ?_ apart, fun clash => absurd clash.index_eq apart⟩
  have ofStep := b.ofStep_name
  rw [← same] at ofStep
  exact a.ofStep_name.index_eq ofStep

/-- The same of the sources at two places of a run. -/
theorem name_eq_iff_clash {start : Nat} {pairs : List (Step × StepResult)} {i j : Nat}
    {a b : Source} (apart : i ≠ j) (isAt : (ofRun start pairs)[i]? = some a)
    (isOther : (ofRun start pairs)[j]? = some b) : a.name = b.name ↔ a.Clash b := by
  have ordered := List.pairwise_iff_getElem.1 (pairwise_name_ofRun start pairs)
  obtain ⟨bound, rfl⟩ := List.getElem?_eq_some_iff.1 isAt
  obtain ⟨otherBound, rfl⟩ := List.getElem?_eq_some_iff.1 isOther
  rcases Nat.lt_or_gt_of_ne apart with before | after
  · exact ordered i j bound otherBound before
  · have swapped := ordered j i otherBound bound after
    exact ⟨fun same => (swapped.1 same.symm).symm, fun clash => (swapped.2 clash.symm).symm⟩

/-- No two sources of a run clash if its results have no clashes. -/
theorem pairwise_not_clash {pairs : List (Step × StepResult)}
    (clashFree : ∀ pair ∈ pairs, ClashFree pair.2) (start : Nat) :
    (ofRun start pairs).Pairwise fun a b => ¬ a.Clash b := by
  refine pairwise_ofRun (fun pair member index => ?_)
    fun a b apart clash => apart clash.index_eq
  refine List.pairwise_append.2 ⟨?_, ?_, ?_⟩
  · exact List.pairwise_map.2 (List.pairwise_of_forall fun _ _ => nofun)
  · rw [List.pairwise_map]
    exact (clashFree pair member).imp fun apart clash => apart (clash_output_iff.1 clash)
  · intro a isArtifact b isOutput
    obtain ⟨artifact, _, rfl⟩ := List.mem_map.1 isArtifact
    exact nofun

/-- The files of a run without clashes have different names. -/
theorem nodup_names {pairs : List (Step × StepResult)}
    (clashFree : ∀ pair ∈ pairs, ClashFree pair.2) (start : Nat) :
    ((ofRun start pairs).map name).Nodup := by
  refine List.pairwise_map.2 ?_
  exact ((pairwise_name_ofRun start pairs).and (pairwise_not_clash clashFree start)).imp
    fun both same => both.2 (both.1.1 same)

variable {dir : Path} {a b : Source}

theorem path_eq_iff : a.path dir = b.path dir ↔ a.name = b.name := by
  constructor
  · exact Path.child_injective a.isName.plain b.isName.plain
  · exact fun same => congrArg (fun name => dir.join ⟨name⟩) same

/-- The path of the file has the components of the directory and then the name. -/
theorem components_path (dir : Path) (source : Source) :
    (source.path dir).components = dir.components ++ [.name source.name] :=
  dir.components_child source.isName

/-- The paths are equal also if they only have the same components. -/
theorem components_path_eq_iff :
    (a.path dir).components = (b.path dir).components ↔ a.name = b.name := by
  rw [a.components_path, b.components_path]
  constructor
  · intro same
    have last := List.append_cancel_left same
    exact Path.Component.name.inj (List.cons.inj last).1
  · rintro same
    rw [same]

/-- A name is one component. -/
theorem components_name (source : Source) :
    (⟨source.name⟩ : Path).components = [.name source.name] := by
  have alone : (⟨""⟩ : Path).child source.name = ⟨source.name⟩ := if_pos (Bool.or_true _)
  rw [← alone, Path.components_child _ source.isName]
  exact List.nil_append _

end Source

/-! ## Writing -/

/-- What writing files leaves behind: the first of the requests, in order, and on success all of
them and the paths. -/
structure Leaves (requests : List Host.Request) (paths : List Path) (events : List Host.Event)
    (result : Except Failure (List Path)) : Prop where
  isPrefix : events.map Host.Event.request <+: requests
  complete : ∀ written, result = .ok written →
    events.map Host.Event.request = requests ∧ written = paths

namespace Leaves

variable {requests : List Host.Request} {paths : List Path} {events : List Host.Event}
  {result : Except Failure (List Path)} {request : Host.Request}

/-- A request that is refused is the last. -/
theorem refused (answer : request.Answer) (failure : Failure) :
    Leaves (request :: requests) paths [⟨request, answer⟩] (.error failure) :=
  ⟨List.prefix_append [request] requests, nofun⟩

/-- Behind a request that is granted come the others. -/
theorem granted (leaves : Leaves requests paths events result) (request : Host.Request)
    (answer : request.Answer) (onward : List Path → List Path) :
    Leaves (request :: requests) (onward paths) (⟨request, answer⟩ :: events)
      (result.map onward) := by
  refine ⟨List.cons_prefix_cons.2 ⟨rfl, leaves.isPrefix⟩, fun written isOk => ?_⟩
  cases result with
  | error failure => cases isOk
  | ok paths' =>
    obtain ⟨all, rfl⟩ := leaves.complete paths' rfl
    cases isOk
    exact ⟨congrArg (request :: ·) all, rfl⟩

end Leaves

variable {m : Type → Type} [Monad m] [LawfulMonad m]

/-- What holds behind every answer to a request holds behind the request. -/
theorem always_watched_bind {ε α : Type} {holds : Except ε α × List Host.Event → Prop}
    {host : Host m} (request : Host.Request)
    {next : request.Answer → ExceptT ε (StateT (List Host.Event) m) α} {before : List Host.Event}
    (answered : ∀ answer,
      Always holds ((next answer).run.run (before ++ [⟨request, answer⟩]))) :
    Always holds
      (((liftM (host.noting request) : ExceptT ε (StateT (List Host.Event) m) request.Answer) >>=
        next).run.run before) := by
  have lifted : ((liftM (host.noting request) :
      ExceptT ε (StateT (List Host.Event) m) request.Answer) >>= next).run =
        host.noting request >>= fun answer => (next answer).run :=
    ExceptT.run_bind_lift (host.noting request) next
  rw [lifted, StateT.run_bind, Host.run_noting, bind_map_left]
  exact (Always.trivial _).bind fun answer _ => answered answer

/-- Writing the files of some sources makes the requests of the sources, up to the first that is
refused. -/
theorem always_writeFiles (host : Host m) (dir : Path) (sources : List Source)
    (before : List Host.Event) :
    Always (fun out => ∃ events, out.2 = before ++ events ∧
        Leaves (sources.map (·.request dir)) (sources.map (·.path dir)) events out.1)
      ((writeFiles host.watched dir
        (sources.map fun source => (source.name, source.bytes))).run.run before) := by
  induction sources generalizing before with
  | nil =>
    refine Always.pure ⟨[], (List.append_nil _).symm, List.nil_prefix, ?_⟩
    rintro written ⟨⟩
    exact ⟨rfl, rfl⟩
  | cons source rest ih =>
    simp only [List.map_cons, writeFiles]
    refine always_watched_bind (source.request dir) fun answer => ?_
    cases answer with
    | error cause => exact Always.pure ⟨_, rfl, .refused _ (.io cause)⟩
    | ok value =>
      dsimp only
      rw [ExceptT.run_bind, StateT.run_bind]
      refine (ih (before ++ [⟨source.request dir, .ok value⟩])).bind fun out left => ?_
      obtain ⟨result, _⟩ := out
      obtain ⟨more, rfl, leaves⟩ := left
      have granted := leaves.granted (source.request dir) (.ok value) (source.path dir :: ·)
      cases result with
      | error failure => exact Always.pure ⟨_, List.append_assoc .., granted⟩
      | ok written => exact Always.pure ⟨_, List.append_assoc .., granted⟩

/-- Writing the outputs of a run makes the directory and then writes the files of the sources. -/
theorem always_writeOutputs (host : Host m) (dir : Path) (pairs : List (Step × StepResult)) :
    Always (fun out => Leaves
        (.makeDirectories dir :: (Source.ofRun 0 pairs).map (·.request dir))
        ((Source.ofRun 0 pairs).map (·.path dir)) out.2 out.1)
      ((writeOutputs host.watched dir pairs).run.run []) := by
  rw [writeOutputs, runFiles_eq_map]
  refine always_watched_bind (.makeDirectories dir) fun answer => ?_
  cases answer with
  | error cause => exact Always.pure (.refused _ (.creating dir cause))
  | ok value =>
    refine (always_writeFiles host dir _ _).mono fun out left => ?_
    obtain ⟨result, _⟩ := out
    obtain ⟨more, rfl, leaves⟩ := left
    have granted := leaves.granted (.makeDirectories dir) (.ok value) id
    cases result with
    | error failure => exact granted
    | ok written => exact granted

/-! ## Reading back -/

section

variable {σ : Type} {host : Host (StateM σ)} {dir : Path} {proper : σ → Prop}

/-- Writing files that succeeds gives their paths. -/
theorem eq_of_run_writeFiles {files : List (String × Bytes)} {s s' : σ} {written : List Path}
    (wrote : (writeFiles host dir files).run.run s = (.ok written, s')) :
    written = files.map fun file => dir.child file.1 := by
  induction files generalizing s written with
  | nil =>
    cases wrote
    rfl
  | cons file rest ih =>
    obtain ⟨t, more, _, later, rfl⟩ := run_writeFiles_cons wrote
    rw [ih later, List.map_cons]

/-- After files with different names were written, each holds what was written to it. -/
theorem read_of_nodup (law : host.KeepsFiles dir proper) {files : List (String × Bytes)}
    (names : ∀ file ∈ files, Path.IsName file.1) (distinct : (files.map Prod.fst).Nodup)
    {s s' : σ} (start : proper s) {written : List Path}
    (wrote : (writeFiles host dir files).run.run s = (.ok written, s')) :
    ∀ file ∈ files, ((host.read (dir.child file.1)).run s').1 = .ok file.2 := by
  intro file member
  obtain ⟨before, after, rfl⟩ := List.append_of_mem member
  rw [List.map_append, List.map_cons] at distinct
  have last := (List.nodup_cons.1 (List.nodup_append.1 distinct).2.1).1
  exact (read_of_mem law names last start wrote).2

/-- After a run whose results have no clashes, the files of its sources are the ones written, and
each holds what its source gave it. -/
theorem read_of_clashFree (law : host.KeepsFiles dir proper) {pairs : List (Step × StepResult)}
    (clashFree : ∀ pair ∈ pairs, ClashFree pair.2) {s s' : σ} (start : proper s)
    {written : List Path} (wrote : (writeOutputs host dir pairs).run.run s = (.ok written, s')) :
    written = (Source.ofRun 0 pairs).map (·.path dir) ∧
      ∀ source ∈ Source.ofRun 0 pairs,
        ((host.read (source.path dir)).run s').1 = .ok source.bytes := by
  cases made : (host.makeDirectories dir).run s with
  | mk answer t =>
    rw [writeOutputs, run_lift_bind_of made] at wrote
    cases answer with
    | error cause => cases wrote
    | ok value =>
      dsimp only at wrote
      rw [runFiles_eq_map] at wrote
      have names : ∀ file ∈ (Source.ofRun 0 pairs).map fun source => (source.name, source.bytes),
          Path.IsName file.1 :=
        List.forall_mem_map.2 fun source _ => source.isName
      have distinct := Source.nodup_names clashFree 0
      have read := read_of_nodup law names
        (by rwa [List.map_map]) (law.makes s t start made) wrote
      refine ⟨?_, List.forall_mem_map.1 read⟩
      rw [eq_of_run_writeFiles wrote, List.map_map]
      rfl

end

/-! ## Results without clashes -/

/-- Outputs that differ in the form of their names or in their extensions do not clash. -/
theorem ClashFree.of_nodup {result : StepResult}
    (distinct : (result.outputs.map fun o => (slug o.displayName, outputExtension o)).Nodup) :
    ClashFree result :=
  (List.pairwise_map.1 distinct).imp fun apart shares => apart (Prod.ext shares.1 shares.2)

/-- A single output has nothing to clash with. -/
theorem ClashFree.of_single {result : StepResult} {o : StepOutput} (single : result.outputs = [o]) :
    ClashFree result := by
  rw [ClashFree, single]
  exact List.pairwise_singleton _ _

/-- Which output is shown first does not matter. -/
theorem ClashFree.select {result : StepResult} (clashFree : ClashFree result)
    (position : UInt64) : ClashFree (result.select position) := by
  unfold StepResult.select
  split
  · exact clashFree
  · exact clashFree

/-- The report of a failure is its only output. -/
theorem clashFree_ofFailure (error : ToolError) : ClashFree (.ofFailure error) :=
  (ClashFree.of_single rfl).select 0

section

variable (toolchain : Toolchain) (host : Host m) (input : Artifact) (args : BoundArguments)

theorem settles_fxc : Settles ClashFree (fun _ => True)
    (Adapter.Fxc.compile toolchain host input args) := by
  refine host.settles_inWorkspace (fun _ => True.intro) input fun w => ?_
  refine .after fun _ => .after fun _ => .after fun _ => .after fun object => .after fun _ => ?_
  refine .pure (ClashFree.select (.of_nodup ?_) 1)
  change [(slug "Object", "dxbc"), (slug "Disassembly", "txt")].Nodup
  decide +kernel

theorem settles_dxc : Settles ClashFree (fun _ => True)
    (Adapter.Dxc.compile toolchain host input args) := by
  refine .after fun _ => .after fun _ => ?_
  refine host.settles_inWorkspace (fun _ => True.intro) input fun w => ?_
  refine .after fun _ => .after fun _ => .after fun object => .after fun listing => ?_
  refine .after fun _ => .after fun tree => .pure (.of_nodup ?_)
  change [(slug "Disassembly", "txt"), (slug "AST", "txt")].Nodup
  decide +kernel

theorem settles_glslang : Settles ClashFree (fun _ => True)
    (Adapter.Glslang.compile toolchain host input args) := by
  refine host.settles_inWorkspace (fun _ => True.intro) input fun w => ?_
  refine .after fun _ => .after fun _ => .after fun _ => .after fun _ => ?_
  exact .pure (.of_single rfl)

theorem settles_spirvCross : Settles ClashFree (fun _ => True)
    (Adapter.SpirvCross.compile toolchain host input args) := by
  refine .after fun _ => host.settles_inWorkspace (fun _ => True.intro) input fun w => ?_
  refine .after fun _ => .after fun _ => .after fun _ => .after fun _ => ?_
  exact .pure (.of_single rfl)

theorem settles_hlslcc : Settles ClashFree (fun _ => True)
    (Adapter.Hlslcc.compile toolchain host input args) := by
  refine .after fun _ => host.settles_inWorkspace (fun _ => True.intro) input fun w => ?_
  refine .after fun _ => .after fun _ => .after fun _ => .after fun _ => ?_
  exact .pure (.of_single rfl)

theorem settles_mali : Settles ClashFree (fun _ => True)
    (Adapter.Mali.compile toolchain host input args) := by
  refine host.settles_inWorkspace (fun _ => True.intro) input fun w => ?_
  refine .after fun _ => .after fun _ => .after fun _ => ?_
  exact .pure (.of_single rfl)

/-- A built-in tool compiles to results without clashes. -/
theorem settles_builtin {tool : Tool m} (member : tool ∈ Adapter.builtin toolchain host) :
    Settles ClashFree (fun _ => True) (tool.compile input args) := by
  simp only [Adapter.builtin, List.mem_cons, List.not_mem_nil, or_false] at member
  rcases member with rfl | rfl | rfl | rfl | rfl | rfl
  · exact settles_fxc toolchain host input args
  · exact settles_dxc toolchain host input args
  · exact settles_glslang toolchain host input args
  · exact settles_spirvCross toolchain host input args
  · exact settles_hlslcc toolchain host input args
  · exact settles_mali toolchain host input args

/-- **The steps of the built-in tools give results without clashes**, also when they fail. -/
theorem always_clashFree {tool : Tool m} (member : tool ∈ Adapter.builtin toolchain host) :
    Always ClashFree (tool.execute input args) := by
  refine Always.bind (settles_builtin toolchain host input args member) fun answer settled => ?_
  cases answer with
  | ok result => exact Always.pure settled
  | error error => exact Always.pure (clashFree_ofFailure error)

end

/-! ## The outputs of a run -/

/-- **The outputs of a run stay in the directory and apart**, whatever the tools, the outputs and
their languages are called: nothing is asked for but to make the directory and to write the files
of the sources, in order, each under a name in the directory; two files are one exactly when their
sources clash, and only outputs of one step do. If no outputs do, all files hold in the end what
their sources gave them, and the results of the built-in tools are such. -/
theorem outputs_stay_apart (dir : Path) (steps : List Step) (results : List StepResult) :
    let pairs := steps.zip results
    let sources := Source.ofRun 0 pairs
    (∀ source ∈ sources, (⟨source.name⟩ : Path).components = [.name source.name] ∧
      (source.path dir).components = dir.components ++ [.name source.name]) ∧
    (∀ {m : Type → Type} [Monad m] [LawfulMonad m] (host : Host m),
      Always (fun out => Leaves (.makeDirectories dir :: sources.map (·.request dir))
          (sources.map (·.path dir)) out.2 out.1)
        ((writeOutputs host.watched dir pairs).run.run [])) ∧
    (∀ (i j : Nat) (a b : Source), i ≠ j → sources[i]? = some a → sources[j]? = some b →
      (a.path dir = b.path dir ↔ a.Clash b) ∧
      ((a.path dir).components = (b.path dir).components ↔ a.Clash b)) ∧
    (∀ {σ : Type} (host : Host (StateM σ)) (proper : σ → Prop), host.KeepsFiles dir proper →
      (∀ pair ∈ pairs, ClashFree pair.2) → ∀ s s' written, proper s →
        (writeOutputs host dir pairs).run.run s = (.ok written, s') →
          written = sources.map (·.path dir) ∧
            ∀ source ∈ sources, ((host.read (source.path dir)).run s').1 = .ok source.bytes) ∧
    (∀ {m : Type → Type} [Monad m] [LawfulMonad m] (toolchain : Toolchain) (host : Host m),
      ∀ tool ∈ Adapter.builtin toolchain host, ∀ input args,
        Always ClashFree (tool.execute input args)) ∧
    ∀ error, ClashFree (.ofFailure error) := by
  intro pairs sources
  refine ⟨?_, ?_, ?_, ?_, ?_, clashFree_ofFailure⟩
  · intro source _
    exact ⟨source.components_name, source.components_path dir⟩
  · intro m _ _ host
    exact always_writeOutputs host dir pairs
  · intro i j a b apart isAt isOther
    have clashes := Source.name_eq_iff_clash apart isAt isOther
    exact ⟨Source.path_eq_iff.trans clashes, Source.components_path_eq_iff.trans clashes⟩
  · intro σ host proper law clashFree s s' written start wrote
    exact read_of_clashFree law clashFree start wrote
  · intro m _ _ toolchain host tool member input args
    exact always_clashFree toolchain host input args member

/-- The results of a run whose outputs have awkward names, and files of their own. -/
def apartResults : List StepResult :=
  [.forward (.binary Language.dxbc [0xFF, 0x00])
    [.text ".dxbc" (some Language.dxbc) "", .binary "" (some Language.dxbc) [0x01]],
   .forward (.text Language.glsl "é") [.text "../GLSL" none "x", .binary "glsl" none [0x02]]]

/-- The files of awkward names are written and read back on a machine that had no files; of other
results, two outputs have one file. -/
theorem outputs_stay_apart_awkward :
    let machine : Machine := ⟨.empty, .root, .empty, 0⟩
    let dir : Path := ⟨"out"⟩
    let first : Source := .output 1 "2-" (.text "GLSL" none "x")
    let second : Source := .output 1 "2-" (.text "glsl" none "y")
    machine.files.Plain ∧ (∀ pair ∈ awkwardSteps.zip apartResults, ClashFree pair.2) ∧
    (∃ machine', (writeOutputs Machine.scriptHost dir (awkwardSteps.zip apartResults)).run.run
        machine = (.ok [⟨"out/1-fxc-exe.dxbc"⟩, ⟨"out/1-fxc-exe-dxbc.txt"⟩,
          ⟨"out/1-fxc-exe-.dxbc"⟩, ⟨"out/2-2.glsl"⟩, ⟨"out/2-2-glsl.txt"⟩,
          ⟨"out/2-2-glsl.bin"⟩], machine') ∧
      ((Machine.scriptHost.read ⟨"out/2-2-glsl.txt"⟩).run machine').1 = .ok [0x78]) ∧
    (first.path dir = second.path dir ↔ first.Clash second) ∧
    first.path dir = ⟨"out/2-2-glsl.txt"⟩ ∧ second.path dir = ⟨"out/2-2-glsl.txt"⟩ := by
  intro machine dir first second
  have plain : machine.files.Plain := nofun
  have clashFree : ∀ pair ∈ awkwardSteps.zip apartResults, ClashFree pair.2 := by
    have distinct : ∀ pair ∈ awkwardSteps.zip apartResults,
        (pair.2.outputs.map fun o => (slug o.displayName, outputExtension o)).Nodup := by
      decide +kernel
    exact fun pair member => .of_nodup (distinct pair member)
  have succeeds : ((writeOutputs Machine.scriptHost dir
      (awkwardSteps.zip apartResults)).run.run machine).1.toBool = true := by
    decide +kernel
  obtain ⟨written, machine', wrote⟩ := exists_of_toBool_fst succeeds
  obtain ⟨_, _, _, reads, _, _⟩ := outputs_stay_apart dir awkwardSteps apartResults
  obtain ⟨rfl, read⟩ := reads Machine.scriptHost _ (Machine.keepsFiles Machine.launch dir)
    clashFree machine machine' written plain wrote
  obtain ⟨_, _, clashes, _, _, _⟩ := outputs_stay_apart dir awkwardSteps awkwardResults
  refine ⟨plain, clashFree, ⟨machine', ?_, ?_⟩, ?_, by decide +kernel, by decide +kernel⟩
  · rw [wrote]
    have paths : (Source.ofRun 0 (awkwardSteps.zip apartResults)).map (·.path dir) =
        [⟨"out/1-fxc-exe.dxbc"⟩, ⟨"out/1-fxc-exe-dxbc.txt"⟩, ⟨"out/1-fxc-exe-.dxbc"⟩,
          ⟨"out/2-2.glsl"⟩, ⟨"out/2-2-glsl.txt"⟩, ⟨"out/2-2-glsl.bin"⟩] := by
      decide +kernel
    rw [paths]
  · let source : Source := .output 1 "2-" (.text "../GLSL" none "x")
    have there := read source (List.mem_of_getElem? (i := 4) rfl)
    have file : source.path dir = ⟨"out/2-2-glsl.txt"⟩ := by decide +kernel
    rw [file] at there
    rw [there]
    decide +kernel
  · exact (clashes 4 5 first second (by decide) rfl rfl).1

end ShaderChain.CommandLine
