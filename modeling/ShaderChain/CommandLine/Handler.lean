import ShaderChain.Adapter.Builtin
import ShaderChain.CommandLine.OutputFiles
import ShaderChain.CommandLine.Report
import ShaderChain.CommandLine.Request
import ShaderChain.CommandLine.StepText
import ShaderChain.Pipeline.Run

/-!
# Doing what a command line asks for

A command prints texts, each of which is noted when it is printed, and may fail at
any point (`Handling`). What it leaves is an `Outcome`: all that was noted and, if it
failed, why. A run prints its report when its pipeline gave results and its files
were written; it also fails, after its report, when a step reported errors.
-/

set_option autoImplicit false

namespace ShaderChain.CommandLine

/-- What a command printed, one text after the other, and why it failed if it did. -/
structure Outcome where
  printed : List String
  failure : Option Failure
deriving DecidableEq

/-- All that was printed. -/
def Outcome.output (outcome : Outcome) : String := String.join outcome.printed

/-- Work of a command: it may fail, and notes the texts that it prints. What it printed before it
failed was printed. -/
abbrev Handling (m : Type → Type) : Type → Type := ExceptT Failure (StateT (List String) m)

variable {m : Type → Type} [Monad m]

/-- Work that prints nothing. -/
def quietly {α : Type} (work : ExceptT Failure m α) : Handling m α :=
  ExceptT.mk (StateT.lift work.run)

/-- Prints a text. -/
def print (text : String) : Handling m Unit := modify fun printed => printed ++ [text]

/-- Why something failed, if it did. -/
def failure? : Except Failure Unit → Option Failure
  | .ok _ => none
  | .error failure => some failure

/-- Does the work of a command, before which nothing was printed. -/
def Handling.outcome (work : Handling m Unit) : m Outcome := do
  let (result, printed) ← work.run.run []
  return ⟨printed, failure? result⟩

/-! ## Runs -/

/-- The library that a configuration names, with what happened to its files. -/
def configuredLibrary (host : Host m) (c : Config) : m (Library × List LoadEvent) :=
  match c.effectivePipelines.dir with
  | some dir => host.loadLibrary dir
  | none => return (.empty, [])

/-- The usable definition of a pipeline that is given by the path of its file or, if there is no
such file, by its name in the library. -/
def findPipeline (host : Host m) (c : Config) (name : String) : ExceptT Failure m Definition := do
  if ← host.isFile ⟨name⟩ then
    match ← host.readUsable ⟨name⟩ with
    | .error fault => throw (.pipeline fault.toError)
    | .ok definition => return definition
  else
    let (library, _) ← ExceptT.lift (configuredLibrary host c)
    match library.get? name with
    | some entry => return entry.definition
    | none => throw (.noPipeline name)

/-- The steps of a run, and the language of its input if a pipeline gives one. -/
def resolveSteps (host : Host m) (c : Config) (r : RunRequest) :
    ExceptT Failure m (List Step × Option String) := do
  match r.pipeline with
  | some name =>
    let definition ← findPipeline host c name
    return (definition.steps, definition.language)
  | none =>
    if r.steps.isEmpty then throw .noSteps
    let steps ← parseSteps r.steps
    return (steps, none)

/-- The language that the extension of a path tells. -/
def inferLanguage (path : Path) : Option String := path.extension?.bind Language.ofExtension?

/-- The language of a run's input: the one asked for, the pipeline's, or the one that the path
tells. -/
def resolveLanguage (r : RunRequest) (declared : Option String) : Except Failure String :=
  match (r.language.or declared).or (inferLanguage r.input) with
  | some language => .ok language
  | none => .error (.noLanguage r.input)

/-- The artifact that bytes in a language make: text, unless the language is binary or the bytes
are no text. -/
def artifactOf (language : String) (content : Bytes) : Artifact :=
  match if Language.isBinary language then none else Text.decode? content with
  | some text => .text language text
  | none => .binary language content

/-- The artifact in a file. -/
def readInput (host : Host m) (path : Path) (language : String) : ExceptT Failure m Artifact := do
  match ← host.read path with
  | .error cause => throw (.reading path cause)
  | .ok content => return artifactOf language content

/-- A registry if all its tools could be registered. -/
def completeRegistry : Registry m × Option PipelineError → Except Failure (Registry m)
  | (_, some error) => .error (.pipeline error)
  | (registry, none) => .ok registry

/-- The registry of the built-in tools as a configuration has them. -/
def configuredRegistry (host : Host m) (c : Config) : Except Failure (Registry m) :=
  completeRegistry (Adapter.registry c.effectiveTools host)

/-- The report on a run. In a document for other programs there is no place for a path that is no
text. -/
def reportOf (json : Bool) (r : RunRequest) (language : String)
    (results : List (Step × StepResult)) : Except Failure String :=
  if json then
    if r.inputIsText then .ok (jsonText (runDocument r.input language results))
    else .error .pathIsNoText
  else .ok (runText results)

/-- Fails if steps reported errors. -/
def judge (results : List StepResult) : Except Failure Unit :=
  let count := (results.filter StepResult.hasErrors).length
  if count = 0 then .ok () else .error (.stepErrors count)

/-- Runs an input through steps. -/
def performRun (host : Host m) (c : Config) (json : Bool) (r : RunRequest) : Handling m Unit := do
  let (steps, declared) ← quietly (resolveSteps host c r)
  let language ← resolveLanguage r declared
  let input ← quietly (readInput host r.input language)
  let registry ← configuredRegistry host c
  match ← quietly (ExceptT.lift (registry.run input steps)) with
  | .error error => throw (.pipeline error)
  | .ok results =>
    let pairs := steps.zip results
    match r.outDir with
    | some dir => let _ ← quietly (writeOutputs host dir pairs)
    | none => pure ()
    print (← reportOf json r language pairs)
    judge results

/-! ## Tools -/

/-- The usual name of a tool's program. -/
def usualProgram (tool : String) : String := (Adapter.programs.lookup tool).getD tool

/-- Where the program of a tool is. -/
def toolInfo (host : Host m) (toolchain : Toolchain) (d : ToolDescriptor) : m ToolInfo := do
  let usual := usualProgram d.name
  let located ← toolchain.locate host d.name usual
  return ⟨d, located.getD (toolchain.executable d.name usual), located.isSome⟩

/-- Where the programs of tools are. -/
def toolInfos (host : Host m) (toolchain : Toolchain) : List ToolDescriptor → m (List ToolInfo)
  | [] => return []
  | d :: rest => do
    let info ← toolInfo host toolchain d
    return info :: (← toolInfos host toolchain rest)

/-- Lists the tools, or the one with a name. -/
def performTools (host : Host m) (c : Config) (request : Request) (name : Option String) :
    Handling m Unit := do
  let registry ← configuredRegistry host c
  match name.filter (! registry.contains ·) with
  | some name => throw (.noSuchTool name)
  | none =>
    let descriptors := registry.descriptors.filter fun d => name.all (· == d.name)
    let toolchain := Toolchain.ofSection c.effectiveTools
    let infos ← quietly (ExceptT.lift (toolInfos host toolchain descriptors))
    print
      (if request.json then jsonText (toolsDocument infos) else toolsText request.verbose infos)

/-! ## Pipelines -/

/-- Lists the library. -/
def performPipelines (host : Host m) (c : Config) (json detailed : Bool) : Handling m Unit := do
  let dir := c.effectivePipelines.dir
  let (library, events) ← quietly (ExceptT.lift (configuredLibrary host c))
  let skipped := skippedFiles events
  print
    (if json then jsonText (pipelinesDocument dir library skipped)
    else pipelinesText detailed dir library skipped)

/-! ## Configuration -/

/-- The path of a configuration file that is to be made, in a directory that is made if need be:
the project's file or the user's. -/
def initPath (host : Host m) (isLocal : Bool) : ExceptT Failure m Path := do
  if isLocal then return ⟨projectFile⟩
  match ← host.userConfigDir with
  | none => throw .noConfigDir
  | some dir =>
    match ← host.makeDirectories dir with
    | .error cause => throw (.io cause)
    | .ok _ => return dir.child userFile

/-- Makes a configuration file to start from, unless there is one. -/
def performInit (host : Host m) (isLocal : Bool) : Handling m Unit := do
  let path ← quietly (initPath host isLocal)
  if ← host.hasEntry path then
    print (unlines ["Config file already exists: " ++ path.text])
  else
    match ← host.writeText path configTemplate with
    | .error cause => throw (.io cause)
    | .ok _ => print (unlines ["Created " ++ path.text])

/-- Prints the path of the user's configuration file. -/
def performPath (host : Host m) : Handling m Unit := do
  match ← host.userConfigPath with
  | none => throw .noConfigDir
  | some path => print (unlines [path.text])

/-- Looks after the configuration. -/
def performConfig (host : Host m) (l : LoadedConfig) (request : Request) :
    ConfigRequest → Handling m Unit
  | .show =>
    print (if request.json then jsonText l.config.toDocument else configText request.verbose l)
  | .which => print (if request.json then jsonText (sourcesDocument l) else sourcesText l)
  | .path => performPath host
  | .init isLocal => performInit host isLocal

/-! ## Requests -/

/-- The work that a request asks for under the configuration that was loaded. -/
def handle (host : Host m) (l : LoadedConfig) (request : Request) : Handling m Unit :=
  match request.command with
  | .run r => performRun host l.config request.json r
  | .tools name => performTools host l.config request name
  | .pipelines detailed => performPipelines host l.config request.json detailed
  | .config r => performConfig host l request r

/-- Does what a request asks for under the configuration that was loaded. -/
def perform (host : Host m) (l : LoadedConfig) (request : Request) : m Outcome :=
  (handle host l request).outcome

/-- Loads the configuration of the working directory and does what a request asks for. -/
def serve (host : Host m) (request : Request) : m (LoadedConfig × Outcome) := do
  let l ← host.loadConfig none none
  return (l, ← perform host l request)

end ShaderChain.CommandLine
