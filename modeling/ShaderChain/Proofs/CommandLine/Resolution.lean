import ShaderChain.CommandLine.Handler
import ShaderChain.Proofs.Library.Directory

/-!
# The requests that a run makes

The steps of a run, and the language that comes with them, are given one by one
on the command line, by a pipeline in a file, or by a pipeline of the library
(`Origin`). In each case they are well posed (`resolved_request_well_posed`):
there are steps, each names a tool, and the language is not blank.

A text that writes a step has a tool with something in it, since blanks at its
ends do not count (`hasContent_of_parseStep`). A pipeline comes from a file that
was parsed and checked (`Host.Found`). That the library holds nothing else is an
invariant of taking in files one after the other (`Library.origin_of_get?_addAll`).
-/

set_option autoImplicit false

namespace ShaderChain

/-! ## Blanks -/

namespace Text

/-- Whether a text has a character that is not blank. -/
def HasContent (s : String) : Prop := ∃ c ∈ s.toList, isBlank c = false

theorem hasContent_iff {s : String} : HasContent s ↔ isBlankText s = false := by
  simp [HasContent, isBlankText]

/-- What is left after dropping blanks begins with a character that is not blank. -/
theorem exists_of_dropWhile_ne_nil {cs : List Char} (left : cs.dropWhile isBlank ≠ []) :
    ∃ c ∈ cs.dropWhile isBlank, isBlank c = false :=
  ⟨_, List.head_mem left, List.head_dropWhile_not isBlank left⟩

/-- A stripped text that is not empty has content. -/
theorem hasContent_of_strip {cs : List Char} (left : strip cs ≠ []) :
    HasContent (String.ofList (strip cs)) := by
  rw [strip, stripEnd] at left ⊢
  have some : (cs.dropWhile isBlank).reverse.dropWhile isBlank ≠ [] := by
    intro nothing
    apply left
    rw [nothing, List.reverse_nil]
  obtain ⟨c, member, content⟩ := exists_of_dropWhile_ne_nil some
  refine ⟨c, ?_, content⟩
  rw [String.toList_ofList, List.mem_reverse]
  exact member

end Text

/-! ## Definitions without faults -/

namespace Definition

theorem hasContent_of_firstWithoutTool {index : Nat} {steps : List Step}
    (none : firstWithoutTool index steps = none) : ∀ step ∈ steps, Text.HasContent step.tool := by
  induction steps generalizing index with
  | nil =>
    intro step member
    cases member
  | cons first rest ih =>
    rw [firstWithoutTool] at none
    by_cases blank : Text.isBlankText first.tool
    · rw [if_pos blank] at none
      contradiction
    · rw [if_neg blank] at none
      intro step member
      rcases List.mem_cons.1 member with rfl | later
      · exact Text.hasContent_iff.2 (Bool.eq_false_iff.2 blank)
      · exact ih none step later

end Definition

namespace CommandLine

/-- Whether steps, and the language that comes with them, make a request: there are steps, each
names a tool, and a language that is given is not blank. -/
structure WellPosed (steps : List Step) (language : Option String) : Prop where
  nonempty : steps ≠ []
  tools : ∀ step ∈ steps, Text.HasContent step.tool
  language : ∀ name, language = some name → Text.HasContent name

/-- A definition without faults makes a request. -/
theorem wellPosed_of_fault? {d : Definition} (sound : d.fault? = none) :
    WellPosed d.steps d.language := by
  rw [Definition.fault?] at sound
  by_cases nameless : Text.isBlankText d.name
  · rw [if_pos nameless] at sound
    contradiction
  rw [if_neg nameless] at sound
  by_cases empty : d.steps.isEmpty
  · rw [if_pos empty] at sound
    contradiction
  rw [if_neg empty] at sound
  cases toolless : Definition.firstWithoutTool 0 d.steps with
  | some step =>
    rw [toolless] at sound
    contradiction
  | none =>
    rw [toolless] at sound
    refine ⟨?_, Definition.hasContent_of_firstWithoutTool toolless, ?_⟩
    · intro none
      apply empty
      rw [none]
      rfl
    · intro name given
      rw [given, Option.any_some] at sound
      rw [Text.hasContent_iff]
      by_contra blank
      rw [Bool.not_eq_false] at blank
      rw [if_pos blank] at sound
      contradiction

/-! ## Steps as text -/

/-- Arguments change nothing about the tool of a step. -/
theorem tool_of_addArguments {spec : String} {step result : Step} {pieces : List (List Char)}
    (added : addArguments spec step pieces = .ok result) : result.tool = step.tool := by
  induction pieces generalizing step with
  | nil =>
    cases added
    rfl
  | cons piece rest ih =>
    rw [addArguments] at added
    cases split : Text.splitFirst? '=' piece with
    | none =>
      rw [split] at added
      cases added
    | some parts =>
      rw [split] at added
      exact (ih added).trans rfl

/-- **A text that writes a step** names its tool. -/
theorem hasContent_of_parseStep {spec : String} {step : Step} (parsed : parseStep spec = .ok step) :
    Text.HasContent step.tool := by
  rw [parseStep] at parsed
  dsimp only at parsed
  by_cases nameless : (stripped (splitStep spec.toList).1).isEmpty
  · rw [if_pos nameless] at parsed
    cases parsed
  · rw [if_neg nameless] at parsed
    rw [tool_of_addArguments parsed]
    apply Text.hasContent_of_strip
    intro nothing
    apply nameless
    rw [stripped, nothing]
    rfl

theorem parseSteps_eq_ok_iff {specs : List String} {steps : List Step} :
    parseSteps specs = .ok steps ↔
      List.Forall₂ (fun spec step => parseStep spec = .ok step) specs steps := by
  induction specs generalizing steps with
  | nil =>
    rw [parseSteps, List.forall₂_nil_left_iff, Except.ok.injEq]
    exact eq_comm
  | cons spec rest ih =>
    rw [parseSteps, List.forall₂_cons_left_iff]
    cases parsed : parseStep spec with
    | error failure => simp
    | ok step =>
      cases later : parseSteps rest with
      | error failure => simp [← ih, later, Except.map]
      | ok others =>
        constructor
        · intro all
          cases all
          exact ⟨step, others, rfl, ih.1 later, rfl⟩
        · rintro ⟨_, _, ⟨⟩, read, rfl⟩
          have same := later.symm.trans (ih.2 read)
          cases same
          rfl

end CommandLine

/-! ## Files that were checked -/

namespace Host

variable {σ : Type} {host : Host (StateM σ)} {s t : σ}

/-- Whether reading a file in a state gives a definition that is parsed and has no fault. -/
def Found (host : Host (StateM σ)) (path : Path) (s : σ) (d : Definition) : Prop :=
  ∃ bytes text t, (host.read path).run s = (.ok bytes, t) ∧ Text.decode? bytes = some text ∧
    Definition.read text = .ok d ∧ d.fault? = none

theorem Found.sound {path : Path} {d : Definition} (found : host.Found path s d) :
    d.fault? = none := by
  obtain ⟨_, _, _, _, _, _, sound⟩ := found
  exact sound

theorem exists_readUsable_iff {path : Path} {d : Definition} :
    (∃ t, (host.readUsable path).run s = (.ok d, t)) ↔ host.Found path s d := by
  cases read : (host.read path).run s with
  | mk content u =>
    constructor
    · rintro ⟨t, ran⟩
      rw [run_readUsable read] at ran
      obtain ⟨usable, _⟩ := Prod.mk.inj ran
      obtain ⟨bytes, text, rfl, parsed⟩ := Library.content_eq_ok_iff.1 usable
      exact ⟨bytes, text, u, read, parsed⟩
    · rintro ⟨bytes, text, t, again, parsed⟩
      cases read.symm.trans again
      refine ⟨u, ?_⟩
      rw [run_readUsable read, Library.content_eq_ok_iff.2 ⟨bytes, text, rfl, parsed⟩]

end Host

/-! ## What a library holds -/

/-- What a reading stores comes from the file that was read. -/
theorem Library.origin_of_get?_add {l : Library} {path : Path}
    {read : Except DefinitionFault Definition} {name : String} {entry : LoadedPipeline}
    (found : (l.add path read).1.get? name = some entry) :
    l.get? name = some entry ∨
      entry.path = path ∧ read = .ok entry.definition ∧ entry.definition.name = name := by
  cases read with
  | error fault => exact .inl found
  | ok d =>
    change (l.pipelines.insert d.name ⟨d, path⟩).get? name = some entry at found
    by_cases own : name = d.name
    · subst own
      rw [Table.get?_insert_self, Option.some.injEq] at found
      subst found
      exact .inr ⟨rfl, rfl, rfl⟩
    · rw [Table.get?_insert_of_ne _ _ (Ne.symm own)] at found
      exact .inl found

/-- **What readings store** comes from one of them, under the name that the definition has. -/
theorem Library.origin_of_get?_addAll {l : Library} {readings : List Library.Reading} {name : String}
    {entry : LoadedPipeline} (found : (l.addAll readings).1.get? name = some entry) :
    l.get? name = some entry ∨
      (entry.path, .ok entry.definition) ∈ readings ∧ entry.definition.name = name := by
  induction readings generalizing l with
  | nil => exact .inl found
  | cons reading rest ih =>
    rw [addAll_cons] at found
    rcases ih found with here | ⟨later, named⟩
    · rcases origin_of_get?_add here with before | ⟨path, read, named⟩
      · exact .inl before
      · refine .inr ⟨?_, named⟩
        rw [path, ← read]
        exact List.mem_cons_self
    · exact .inr ⟨List.mem_cons_of_mem _ later, named⟩

namespace Host

variable {σ : Type} {host : Host (StateM σ)} {s t : σ}

/-- A definition among readings was found in its file. -/
theorem found_of_mem_readAll {paths : List Path} {readings : List Library.Reading}
    (ran : (host.readAll paths).run s = (readings, t)) {path : Path} {d : Definition}
    (member : (path, .ok d) ∈ readings) : ∃ u, host.Found path u d := by
  induction paths generalizing s readings with
  | nil =>
    cases ran
    cases member
  | cons first rest ih =>
    cases here : (host.readUsable first).run s with
    | mk read u =>
      cases later : (host.readAll rest).run u with
      | mk others v =>
        rw [readAll, run_bind_of here, run_bind_of later] at ran
        cases ran
        rcases List.mem_cons.1 member with same | below
        · cases same
          exact ⟨s, exists_readUsable_iff.1 ⟨u, here⟩⟩
        · exact ih later below

/-- A pipeline of a library that was loaded was found in its file, under its own name. -/
theorem found_of_loadLibrary {dir : Path} {library : Library} {told : List LoadEvent}
    (loaded : (host.loadLibrary dir).run s = ((library, told), t)) {name : String}
    {entry : LoadedPipeline} (held : library.get? name = some entry) :
    entry.definition.name = name ∧ ∃ u, host.Found entry.path u entry.definition := by
  cases listed : (host.list dir).run s with
  | mk names u =>
    rw [loadLibrary, run_bind_of listed] at loaded
    cases names with
    | error cause =>
      cases loaded
      rw [Library.get?, Library.empty, Table.get?_empty] at held
      contradiction
    | ok names =>
      dsimp only at loaded
      cases files : (host.filesAmong (candidates dir names)).run u with
      | mk paths v =>
        cases all : (host.readAll paths).run v with
        | mk readings w =>
          rw [run_bind_of files, run_bind_of all] at loaded
          have same : Library.empty.addAll readings = (library, told) := congrArg Prod.fst loaded
          have stored : (Library.empty.addAll readings).1.get? name = some entry := by
            rw [same]
            exact held
          rcases Library.origin_of_get?_addAll stored with before | ⟨member, named⟩
          · rw [Library.get?, Library.empty, Table.get?_empty] at before
            contradiction
          · exact ⟨named, found_of_mem_readAll all member⟩

end Host

namespace CommandLine

/-! ## Where steps come from -/

variable {σ : Type} {host : Host (StateM σ)} {c : Config} {r : RunRequest} {s : σ}

/-- Where the pipeline of a name comes from: the file with this path or, if there is none, the
library of the configuration. Either way it was parsed and has no fault. -/
inductive PipelineOrigin (host : Host (StateM σ)) (c : Config) (name : String) (s : σ) :
    Definition → Prop
  | file {d : Definition} {t : σ} (here : (host.isFile ⟨name⟩).run s = (true, t))
      (found : host.Found ⟨name⟩ t d) : PipelineOrigin host c name s d
  | library {dir : Path} {library : Library} {told : List LoadEvent} {entry : LoadedPipeline}
      {t u v : σ} (absent : (host.isFile ⟨name⟩).run s = (false, t))
      (configured : c.effectivePipelines.dir = some dir)
      (loaded : (host.loadLibrary dir).run t = ((library, told), u))
      (held : library.get? name = some entry) (named : entry.definition.name = name)
      (found : host.Found entry.path v entry.definition) :
      PipelineOrigin host c name s entry.definition

/-- Where the steps of a run and their language come from: the texts on the command line, which
give no language, or the pipeline that was asked for. -/
inductive Origin (host : Host (StateM σ)) (c : Config) (r : RunRequest) (s : σ) :
    List Step → Option String → Prop
  | given {steps : List Step} (unnamed : r.pipeline = none) (some : r.steps ≠ [])
      (parsed : List.Forall₂ (fun spec step => parseStep spec = .ok step) r.steps steps) :
      Origin host c r s steps none
  | pipeline {name : String} {d : Definition} (named : r.pipeline = some name)
      (origin : PipelineOrigin host c name s d) : Origin host c r s d.steps d.language

theorem PipelineOrigin.sound {name : String} {d : Definition}
    (origin : PipelineOrigin host c name s d) : d.fault? = none := by
  cases origin with
  | file here found => exact found.sound
  | library absent configured loaded held named found => exact found.sound

/-- **Wherever steps come from**, they make a request. -/
theorem Origin.wellPosed {steps : List Step} {language : Option String}
    (origin : Origin host c r s steps language) : WellPosed steps language := by
  cases origin with
  | pipeline named origin => exact wellPosed_of_fault? origin.sound
  | given unnamed some parsed =>
    refine ⟨?_, ?_, nofun⟩
    · rintro rfl
      exact some (List.forall₂_nil_right_iff.1 parsed)
    · intro step member
      obtain ⟨index, inside, rfl⟩ := List.getElem_of_mem member
      have spec := parsed.get (by rw [parsed.length_eq]; exact inside) inside
      exact hasContent_of_parseStep spec

/-- A pipeline in the library of the configuration was found in a file of its directory. -/
theorem found_of_configuredLibrary {library : Library} {told : List LoadEvent} {t u : σ}
    (loaded : (configuredLibrary host c).run t = ((library, told), u)) {name : String}
    {entry : LoadedPipeline} (held : library.get? name = some entry) :
    ∃ dir, c.effectivePipelines.dir = some dir ∧
      (host.loadLibrary dir).run t = ((library, told), u) ∧ entry.definition.name = name ∧
        ∃ v, host.Found entry.path v entry.definition := by
  rw [configuredLibrary] at loaded
  cases configured : c.effectivePipelines.dir with
  | none =>
    rw [configured] at loaded
    cases loaded
    cases held
  | some dir =>
    rw [configured] at loaded
    exact ⟨dir, rfl, loaded, Host.found_of_loadLibrary loaded held⟩

/-- A pipeline that is given comes from somewhere. -/
theorem pipelineOrigin_of_findPipeline {name : String} {d : Definition} {s' : σ}
    (ran : (findPipeline host c name).run.run s = (.ok d, s')) :
    PipelineOrigin host c name s d := by
  cases looked : (host.isFile ⟨name⟩).run s with
  | mk isFile t =>
    rw [findPipeline, run_lift_bind_of looked] at ran
    cases isFile with
    | true =>
      rw [if_pos rfl] at ran
      cases read : (host.readUsable ⟨name⟩).run t with
      | mk usable u =>
        rw [run_lift_bind_of read] at ran
        cases usable with
        | error fault => cases ran
        | ok other =>
          cases ran
          exact .file looked (Host.exists_readUsable_iff.1 ⟨_, read⟩)
    | false =>
      rw [if_neg Bool.false_ne_true] at ran
      cases all : (configuredLibrary host c).run t with
      | mk loaded u =>
        obtain ⟨library, told⟩ := loaded
        have rest := (run_lift_bind_of all).symm.trans ran
        dsimp only at rest
        cases held : library.get? name with
        | none =>
          rw [held] at rest
          cases rest
        | some entry =>
          rw [held] at rest
          cases rest
          obtain ⟨dir, configured, loaded, named, w, found⟩ := found_of_configuredLibrary all held
          exact .library looked configured loaded held named found

/-- A pipeline that comes from somewhere is given. -/
theorem PipelineOrigin.exists_findPipeline {name : String} {d : Definition}
    (origin : PipelineOrigin host c name s d) :
    ∃ s', (findPipeline host c name).run.run s = (.ok d, s') := by
  cases origin with
  | file here found =>
    obtain ⟨u, read⟩ := Host.exists_readUsable_iff.2 found
    refine ⟨u, ?_⟩
    rw [findPipeline, run_lift_bind_of here, if_pos rfl, run_lift_bind_of read]
    rfl
  | @library dir library told entry t u v absent configured loaded held =>
    have all : (configuredLibrary host c).run t = ((library, told), u) := by
      rw [configuredLibrary, configured]
      exact loaded
    refine ⟨u, ?_⟩
    rw [findPipeline, run_lift_bind_of absent, if_neg Bool.false_ne_true]
    refine (run_lift_bind_of all).trans ?_
    dsimp only
    rw [held]
    rfl

/-- Steps that are given as texts are parsed, and nothing is looked at. -/
theorem run_resolveSteps_of_given (unnamed : r.pipeline = none) (some : r.steps ≠ []) :
    (resolveSteps host c r).run.run s = ((parseSteps r.steps).map (·, none), s) := by
  have nonempty : ¬ r.steps.isEmpty = true := by
    intro empty
    exact some (List.isEmpty_iff.1 empty)
  rw [resolveSteps, unnamed]
  dsimp only
  rw [if_neg nonempty]
  cases parseSteps r.steps with
  | error failure => rfl
  | ok steps => rfl

/-- Without a pipeline and without steps there is no request. -/
theorem run_resolveSteps_of_nothing (unnamed : r.pipeline = none) (none : r.steps = []) :
    (resolveSteps host c r).run.run s = (.error .noSteps, s) := by
  rw [resolveSteps, unnamed, none]
  rfl

/-- **Steps are resolved** exactly if they come from somewhere. -/
theorem exists_resolveSteps_iff {steps : List Step} {language : Option String} :
    (∃ s', (resolveSteps host c r).run.run s = (.ok (steps, language), s')) ↔
      Origin host c r s steps language := by
  constructor
  · rintro ⟨s', ran⟩
    cases asked : r.pipeline with
    | some name =>
      rw [resolveSteps, asked] at ran
      obtain ⟨d, t, found, rest⟩ := exists_of_run_bind_ok ran
      cases rest
      exact .pipeline asked (pipelineOrigin_of_findPipeline found)
    | none =>
      by_cases empty : r.steps = []
      · rw [run_resolveSteps_of_nothing asked empty] at ran
        cases ran
      · rw [run_resolveSteps_of_given asked empty] at ran
        cases parsed : parseSteps r.steps with
        | error failure =>
          rw [parsed] at ran
          cases ran
        | ok parsedSteps =>
          rw [parsed] at ran
          cases ran
          exact .given asked empty (parseSteps_eq_ok_iff.1 parsed)
  · intro origin
    cases origin with
    | given unnamed some parsed =>
      refine ⟨s, ?_⟩
      rw [run_resolveSteps_of_given unnamed some, parseSteps_eq_ok_iff.2 parsed]
      rfl
    | @pipeline name d named origin =>
      obtain ⟨t, found⟩ := origin.exists_findPipeline
      refine ⟨t, ?_⟩
      rw [resolveSteps, named]
      dsimp only
      rw [run_bind_of_ok found]
      rfl

end CommandLine

/-- **A resolved request is well posed**: there are steps, each names a tool, and a language that
comes with them is not blank. The steps and the language are what the texts on the command line
write or what a definition has that was parsed and checked, and a file that has the path given as
the name of a pipeline counts before the library. -/
theorem resolved_request_well_posed {σ : Type} {host : Host (StateM σ)} {c : Config}
    {r : CommandLine.RunRequest} {s s' : σ} {steps : List Step} {language : Option String}
    (resolved : (CommandLine.resolveSteps host c r).run.run s = (.ok (steps, language), s')) :
    CommandLine.WellPosed steps language ∧ CommandLine.Origin host c r s steps language ∧
      ∀ name t, r.pipeline = some name → (host.isFile ⟨name⟩).run s = (true, t) →
        ∃ d, host.Found ⟨name⟩ t d ∧ steps = d.steps ∧ language = d.language := by
  have origin := CommandLine.exists_resolveSteps_iff.1 ⟨s', resolved⟩
  refine ⟨origin.wellPosed, origin, ?_⟩
  intro name t asked here
  cases origin with
  | given unnamed => cases asked.symm.trans unnamed
  | @pipeline other d named origin =>
    cases asked.symm.trans named
    cases origin with
    | library absent => cases here.symm.trans absent
    | file again found =>
      cases here.symm.trans again
      exact ⟨d, found, rfl, rfl⟩

/-- The crowded machine with one more file, whose path is a name in the library. -/
def Machine.shadowed : Machine :=
  { Machine.crowded with
    files := Machine.crowded.files.put ⟨["same"]⟩
      (.file (Text.encode Definition.older.write) false) }

/-- A run of the pipeline with that name. -/
def CommandLine.RunRequest.shadowed : CommandLine.RunRequest :=
  ⟨⟨"in.hlsl"⟩, true, none, [], some "same", none⟩

/-- The file counts, though its definition was replaced in the library. -/
theorem resolved_request_well_posed_shadowed :
    ∃ s', (CommandLine.resolveSteps Machine.scriptHost ⟨none, some ⟨some ⟨"lib"⟩⟩, none⟩
        .shadowed).run.run .shadowed = (.ok (Definition.older.steps, none), s') ∧
      CommandLine.WellPosed Definition.older.steps none ∧
        ∃ d, Machine.scriptHost.Found ⟨"same"⟩ .shadowed d ∧
          Definition.older.steps = d.steps ∧ none = d.language := by
  have isFile : Machine.shadowed.files.isFile Machine.shadowed.directory ⟨"same"⟩ = true := by
    decide +kernel
  have here : (Machine.scriptHost.isFile ⟨"same"⟩).run .shadowed = (true, .shadowed) :=
    congrArg (·, Machine.shadowed) isFile
  have content : Machine.shadowed.files.read Machine.shadowed.directory ⟨"same"⟩ =
      .ok (Text.encode Definition.older.write) := by
    decide +kernel
  have read : (Machine.scriptHost.read ⟨"same"⟩).run .shadowed =
      (.ok (Text.encode Definition.older.write), .shadowed) :=
    congrArg (·, Machine.shadowed) content
  have found : Machine.scriptHost.Found ⟨"same"⟩ .shadowed .older :=
    ⟨_, _, _, read, Text.decode?_encode _, by decide +kernel, rfl⟩
  obtain ⟨s', resolved⟩ := CommandLine.exists_resolveSteps_iff.2
    (CommandLine.Origin.pipeline (c := ⟨none, some ⟨some ⟨"lib"⟩⟩, none⟩)
      (r := .shadowed) rfl (.file here found))
  obtain ⟨posed, _, counts⟩ := resolved_request_well_posed resolved
  exact ⟨s', resolved, posed, counts "same" .shadowed rfl here⟩

end ShaderChain
