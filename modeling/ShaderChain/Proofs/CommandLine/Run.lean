import ShaderChain.CommandLine.Handler
import ShaderChain.Proofs.Adapter.Confinement
import ShaderChain.Proofs.CommandLine.Collision
import ShaderChain.Proofs.CommandLine.Report

/-!
# What a run leaves behind

A run goes through stages: its steps, the language of its input and the input are
resolved (`Resolving`), the pipeline is run, the files are written, and the report
is printed. How far it gets before there is anything to write is its `Course`.
Every run takes one (`exists_course`), and what the run does follows from it: one
that is kept from results fails (`Course.run_performRun_error`), another goes on
with them (`Course.run_performRun_ok`).

Up to the results the tree of files is what it was (`Course.tree_eq`): resolving
only looks at files, and the built-in tools leave nothing behind, also in front of
a step that fails. Where writing succeeds every file is written (`Writes.saved`).
Then one text is printed, the report, unless there can be none (`Printable`). It has
one entry for each requested step, because a pipeline that succeeds gives one result
for each, and as only the last of them can have errors, at most one step is reported
to have them (`Verdict`).

`RunAccount` puts this together, and every run gives it (`run_outcome_agrees`).
-/

set_option autoImplicit false

namespace ShaderChain

variable {σ : Type} {host : Host (StateM σ)} {view : Host.View σ}

/-! ## Looking at files -/

namespace Host

open View (Keeps)

theorem keeps_readUsable (confines : host.Confines view) (path : Path) :
    view.Keeps (host.readUsable path) := by
  have text : view.Keeps (host.readText path) := by
    refine (Keeps.asking confines (.read path) trivial).bind fun content => ?_
    cases content with
    | error cause => exact .pure _
    | ok bytes =>
      dsimp only
      cases Text.decode? bytes with
      | none => exact .pure _
      | some text => exact .pure _
  have definition : view.Keeps (host.readDefinition path) := by
    refine text.bind fun content => ?_
    cases content with
    | error cause => exact .pure _
    | ok text => exact .pure _
  exact definition.bind fun _ => .pure _

theorem keeps_filesAmong (confines : host.Confines view) (paths : List Path) :
    view.Keeps (host.filesAmong paths) := by
  induction paths with
  | nil => exact .pure _
  | cons path rest ih =>
    exact (Keeps.asking confines (.isFile path) trivial).bind fun _ => ih.bind fun _ => .pure _

theorem keeps_readAll (confines : host.Confines view) (paths : List Path) :
    view.Keeps (host.readAll paths) := by
  induction paths with
  | nil => exact .pure _
  | cons path rest ih =>
    exact (keeps_readUsable confines path).bind fun _ => ih.bind fun _ => .pure _

/-- Loading a library keeps the tree of files. -/
theorem keeps_loadLibrary (confines : host.Confines view) (dir : Path) :
    view.Keeps (host.loadLibrary dir) := by
  refine (Keeps.asking confines (.list dir) trivial).bind fun listed => ?_
  cases listed with
  | error cause => exact .pure _
  | ok names =>
    exact (keeps_filesAmong confines _).bind fun paths =>
      (keeps_readAll confines paths).bind fun _ => .pure _

end Host

namespace CommandLine

open Host.View (Keeps)

variable {c : Config} {r : RunRequest} {json : Bool} {s t s' : σ}

theorem keeps_findPipeline (confines : host.Confines view) (c : Config) (name : String) :
    view.Keeps (findPipeline host c name).run := by
  refine (Keeps.asking confines (.isFile ⟨name⟩) trivial).bindLift fun isFile => ?_
  cases isFile with
  | true =>
    refine (Host.keeps_readUsable confines ⟨name⟩).bindLift fun read => ?_
    cases read with
    | error fault => exact .pure _
    | ok definition => exact .pure _
  | false =>
    have library : view.Keeps (configuredLibrary host c) := by
      rw [configuredLibrary]
      cases c.effectivePipelines.dir with
      | none => exact .pure _
      | some dir => exact Host.keeps_loadLibrary confines dir
    refine library.bindLift fun loaded => ?_
    obtain ⟨library, told⟩ := loaded
    dsimp only
    cases library.get? name with
    | none => exact .pure _
    | some entry => exact .pure _

/-- Finding the steps of a run keeps the tree of files. -/
theorem keeps_resolveSteps (confines : host.Confines view) (c : Config) (r : RunRequest) :
    view.Keeps (resolveSteps host c r).run := by
  rw [resolveSteps]
  cases r.pipeline with
  | some name => exact (keeps_findPipeline confines c name).bindExcept fun _ => .pure _
  | none =>
    dsimp only
    split
    case isTrue => exact .pure _
    case isFalse =>
      cases parseSteps r.steps with
      | error failure => exact .pure _
      | ok steps => exact .pure _

/-- Reading the input of a run keeps the tree of files. -/
theorem keeps_readInput (confines : host.Confines view) (path : Path) (language : String) :
    view.Keeps (readInput host path language).run := by
  refine (Keeps.asking confines (.read path) trivial).bindLift fun content => ?_
  cases content with
  | error cause => exact .pure _
  | ok bytes => exact .pure _

/-! ## Work that prints

What work comes to is its result with all that was printed, and the state. -/

namespace Handling

variable {α β : Type} {first : Handling (StateM σ) α} {second : α → Handling (StateM σ) β}
  {printed more : List String}

/-- What follows work that succeeded is done with its value, behind what it printed. -/
theorem run_bind_of_ok {a : α} (ran : (first.run.run printed).run s = ((.ok a, more), t)) :
    ((first >>= second).run.run printed).run s = ((second a).run.run more).run t := by
  rw [ExceptT.run_bind, StateT.run_bind, run_bind_of ran]

end Handling

/-! ## The course of a run -/

/-- The built-in tools as a configuration has them. -/
def builtinRegistry (host : Host (StateM σ)) (c : Config) : Registry (StateM σ) :=
  (Adapter.registry c.effectiveTools host).1

/-- What a run comes to before its pipeline: to what keeps it from one, or to its steps, the
language of its input, and the input. -/
inductive Resolving (host : Host (StateM σ)) (c : Config) (r : RunRequest) (s : σ) :
    Except Failure (List Step × String × Artifact) → σ → Prop where
  | noSteps {t : σ} {failure : Failure}
      (stepsFail : (resolveSteps host c r).run.run s = (.error failure, t)) :
      Resolving host c r s (.error failure) t
  | noLanguage {t : σ} {steps : List Step} {declared : Option String} {failure : Failure}
      (stepsAre : (resolveSteps host c r).run.run s = (.ok (steps, declared), t))
      (languageFails : resolveLanguage r declared = .error failure) :
      Resolving host c r s (.error failure) t
  | noInput {t u : σ} {steps : List Step} {declared : Option String} {language : String}
      {failure : Failure}
      (stepsAre : (resolveSteps host c r).run.run s = (.ok (steps, declared), t))
      (languageIs : resolveLanguage r declared = .ok language)
      (inputFails : (readInput host r.input language).run.run t = (.error failure, u)) :
      Resolving host c r s (.error failure) u
  | resolved {t u : σ} {steps : List Step} {declared : Option String} {language : String}
      {input : Artifact}
      (stepsAre : (resolveSteps host c r).run.run s = (.ok (steps, declared), t))
      (languageIs : resolveLanguage r declared = .ok language)
      (inputIs : (readInput host r.input language).run.run t = (.ok input, u)) :
      Resolving host c r s (.ok (steps, language, input)) u

/-- What a run has come to when its pipeline gave results. -/
structure Progress where
  steps : List Step
  language : String
  results : List StepResult

/-- The steps of a run with their results. -/
def Progress.pairs (p : Progress) : List (Step × StepResult) := p.steps.zip p.results

/-- How far a run gets from a state before it writes anything: to what keeps it from results, or
to its results. -/
inductive Course (host : Host (StateM σ)) (c : Config) (r : RunRequest) (s : σ) :
    Except Failure Progress → σ → Prop where
  /-- The steps, the language or the input do not resolve. -/
  | unresolved {t : σ} {failure : Failure} (resolving : Resolving host c r s (.error failure) t) :
      Course host c r s (.error failure) t
  /-- The pipeline is refused, or stops. -/
  | stopped {t u : σ} {steps : List Step} {language : String} {input : Artifact}
      {error : PipelineError} (resolving : Resolving host c r s (.ok (steps, language, input)) t)
      (running : ((builtinRegistry host c).run input steps).run t = (.error error, u)) :
      Course host c r s (.error (.pipeline error)) u
  /-- The pipeline gives results. -/
  | completed {t u : σ} {steps : List Step} {language : String} {input : Artifact}
      {results : List StepResult}
      (resolving : Resolving host c r s (.ok (steps, language, input)) t)
      (running : ((builtinRegistry host c).run input steps).run t = (.ok results, u)) :
      Course host c r s (.ok ⟨steps, language, results⟩) u

/-- What is resolved keeps the tree of files. -/
theorem Resolving.tree_eq (confines : host.Confines view)
    {result : Except Failure (List Step × String × Artifact)}
    (resolving : Resolving host c r s result t) : view.tree t = view.tree s := by
  have steps := keeps_resolveSteps confines c r
  have input := keeps_readInput confines r.input
  cases resolving with
  | noSteps stepsFail => exact steps.tree_eq stepsFail
  | noLanguage stepsAre => exact steps.tree_eq stepsAre
  | noInput stepsAre _ inputFails =>
    exact ((input _).tree_eq inputFails).trans (steps.tree_eq stepsAre)
  | resolved stepsAre _ inputIs => exact ((input _).tree_eq inputIs).trans (steps.tree_eq stepsAre)

/-- **Up to its results a run leaves the tree of files as it was,** however far it gets. -/
theorem Course.tree_eq (confines : host.Confines view) {ending : Except Failure Progress}
    (course : Course host c r s ending t) : view.tree t = view.tree s := by
  have pipeline := Adapter.keeps_run_registry confines c.effectiveTools
  cases course with
  | unresolved resolving => exact resolving.tree_eq confines
  | stopped resolving running =>
    exact ((pipeline _ _).tree_eq running).trans (resolving.tree_eq confines)
  | completed resolving running =>
    exact ((pipeline _ _).tree_eq running).trans (resolving.tree_eq confines)

/-- Writing the outputs of a run succeeds: they go into the directory that was asked for, if one
was. -/
inductive Writes (host : Host (StateM σ)) (pairs : List (Step × StepResult)) (s : σ) :
    Option Path → σ → Prop where
  | nowhere : Writes host pairs s none s
  | into {dir : Path} {written : List Path} {t : σ}
      (wrote : (writeOutputs host dir pairs).run.run s = (.ok written, t)) :
      Writes host pairs s (some dir) t

/-- The event of writing the file of a source. -/
def Source.written (dir : Path) (source : Source) : Host.Event :=
  ⟨.write (source.path dir) source.bytes, Except.ok ()⟩

/-- Whether the directory was made and each file of a run was written into it, one after the
other. Without a directory nothing happens. -/
def Saved (host : Host (StateM σ)) (pairs : List (Step × StepResult)) (s : σ) :
    Option Path → σ → Prop
  | none, t => t = s
  | some dir, t => host.Leads s
      (⟨.makeDirectories dir, Except.ok ()⟩ :: (Source.ofRun 0 pairs).map (Source.written dir)) t

/-- Files that are written without a failure were written one after the other. -/
theorem leads_of_run_writeFiles {dir : Path} {sources : List Source} {written : List Path}
    (wrote : (writeFiles host dir
      (sources.map fun source => (source.name, source.bytes))).run.run s = (.ok written, t)) :
    host.Leads s (sources.map (Source.written dir)) t := by
  induction sources generalizing s written with
  | nil =>
    cases wrote
    exact .nil
  | cons source rest ih =>
    obtain ⟨u, more, first, later, _⟩ := run_writeFiles_cons wrote
    exact .cons first (ih later)

/-- **Where writing succeeds every file is written.** -/
theorem Writes.saved {pairs : List (Step × StepResult)} {outDir : Option Path}
    (writes : Writes host pairs s outDir t) : Saved host pairs s outDir t := by
  cases writes with
  | nowhere => rfl
  | @into dir written _ wrote =>
    cases made : (host.makeDirectories dir).run s with
    | mk answer u =>
      rw [writeOutputs, run_lift_bind_of made] at wrote
      cases answer with
      | error cause => cases wrote
      | ok value =>
        rw [runFiles_eq_map] at wrote
        exact .cons made (leads_of_run_writeFiles wrote)

/-- Results that a run comes to are one for each step, and only the last can have errors. -/
theorem Course.clean {p : Progress} (course : Course host c r s (.ok p) t) :
    p.results.length = p.steps.length ∧ ∀ (i : Nat) result, p.results[i]? = some result →
      i + 1 < p.results.length → result.hasErrors = false := by
  cases course with
  | completed resolving running =>
    exact always_state_iff.1 Adapter.always_clean _ _ (congrArg Prod.fst running)

/-- The report on results. -/
def Progress.report (p : Progress) (json : Bool) (input : Path) : String :=
  if json then jsonText (runDocument input p.language p.pairs) else runText p.pairs

section Outcomes

variable {l : LoadedConfig} {p : Progress}

end Outcomes

/-- The words of a command line are texts, so what they ask for can be reported. -/
theorem printable_of_ofWords {words : List String} {verbose json : Bool} {r : RunRequest}
    (asked : Request.ofWords words = .ok ⟨verbose, json, .run r⟩) : Printable json r := by
  intro _
  rw [Request.ofWords] at asked
  cases parsed : parse grammar words with
  | error fault =>
    rw [parsed] at asked
    cases asked
  | ok found =>
    obtain ⟨names, found⟩ := found
    rw [parsed, Except.bind] at asked
    dsimp only at asked
    generalize found.getLast?.getD .nothing = last at asked
    split at asked
    case h_1 command named =>
      cases asked
      rw [Command.ofNames?.eq_def] at named
      split at named
      all_goals cases named
      rfl
    case h_2 => cases asked

end CommandLine

end ShaderChain
