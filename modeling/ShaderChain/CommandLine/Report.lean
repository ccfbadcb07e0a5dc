import ShaderChain.Config.Discovery
import ShaderChain.Json.Printer
import ShaderChain.Library
import ShaderChain.StepResult
import ShaderChain.Text.Lines
import ShaderChain.Tool.Basic

/-!
# Reports

What commands print: text for readers, or JSON documents for other programs.
-/

set_option autoImplicit false

namespace ShaderChain.CommandLine

/-- The lines of a text, each with its end. -/
def unlines (lines : List String) : String := String.join (lines.map (· ++ "\n"))

/-- A document printed for other programs. -/
def jsonText (d : Document) : String := unlines [Json.pretty d]

/-- A line under a heading. -/
def rule : String := String.ofList (List.replicate 40 '─')

/-! ## Runs -/

/-- The size of a payload in words. -/
def describePayload : Payload → String
  | .text content => Integer.naturalText (Text.lines content).length ++ " lines"
  | .binary content => Integer.naturalText content.length ++ " bytes"

/-- The lines about an output, which is marked if it is the one to show first. -/
def outputLines (isSelected : Bool) (o : StepOutput) : List String :=
  let language := (o.language.map fun language => " [" ++ language ++ "]").getD ""
  let body :=
    match o.value with
    | .text content => (Text.lines content).map ("    " ++ ·)
    | .binary _ => ["    " ++ describePayload o.value]
  ((if isSelected then "›" else " ") ++ " " ++ o.displayName ++ language) :: body

/-- The lines about outputs from the one at `position` on. -/
def outputsLines (selected : Option UInt64) (position : Nat) : List StepOutput → List String
  | [] => []
  | o :: rest =>
    outputLines (selected.any (·.toNat == position)) o ++ outputsLines selected (position + 1) rest

/-- The line about an artifact. -/
def artifactLine (a : Artifact) : String :=
  "  Pipeable: " ++ a.language ++ " (" ++ describePayload a.payload ++ ")"

/-- The lines about the step at `index`. -/
def stepLines (index : Nat) (step : Step) (r : StepResult) : List String :=
  ["", "Step " ++ Integer.naturalText (index + 1) ++ ": " ++ step.tool, rule] ++
    (r.pipeable.map artifactLine).toList ++ outputsLines r.selected 0 r.outputs

/-- The lines about steps from the one at `index` on. -/
def stepsLines (index : Nat) : List (Step × StepResult) → List String
  | [] => []
  | (step, r) :: rest => stepLines index step r ++ stepsLines (index + 1) rest

/-- The report on a run for readers. -/
def runText (results : List (Step × StepResult)) : String := unlines (stepsLines 0 results ++ [""])

/-- The document of steps from the one at `index` on. -/
def stepDocuments (index : Nat) : List (Step × StepResult) → List Document
  | [] => []
  | (step, r) :: rest =>
    .table [("index", .int index), ("tool", .text step.tool), ("result", r.toDocument)] ::
      stepDocuments (index + 1) rest

/-- The document of a run. -/
def runDocument (input : Path) (language : String) (results : List (Step × StepResult)) :
    Document :=
  .table
    [("input", .text input.text), ("language", .text language),
     ("steps", .list (stepDocuments 0 results))]

/-! ## Tools -/

/-- A tool with the path of its program and whether there is such a file. -/
structure ToolInfo where
  descriptor : ToolDescriptor
  executable : Path
  found : Bool

/-- What a parameter takes, in short. -/
def kindSummary : ParameterKind → String
  | .string => "string"
  | .bool => "bool"
  | .int (some min) (some max) =>
    "int " ++ Integer.text min.toInt ++ "..=" ++ Integer.text max.toInt
  | .int (some min) none => "int >= " ++ Integer.text min.toInt
  | .int none (some max) => "int <= " ++ Integer.text max.toInt
  | .int none none => "int"
  | .choice allowed => Text.joined " | " allowed
  | .outputLanguage allowed => Text.joined " | " allowed

/-- The lines about a parameter. -/
def parameterLines (verbose : Bool) (p : Parameter) : List String :=
  ("    " ++ Text.padRight 22 p.name ++ " " ++ Text.padRight 40 (kindSummary p.kind) ++
      " default: " ++ (if p.default.isEmpty then "\"\"" else p.default)) ::
    (if verbose && !p.description.isEmpty then
      ["    " ++ Text.padRight 22 "" ++ " " ++ p.description]
    else [])

/-- The lines about a tool. -/
def toolLines (verbose : Bool) (t : ToolInfo) : List String :=
  let d := t.descriptor
  let outputs := if d.isTerminal then "(report only)" else Text.joined ", " d.outputLanguages
  ["", d.name ++ " - " ++ d.displayName] ++
    (if d.description.isEmpty then [] else ["  " ++ d.description]) ++
    ["  Languages: " ++ Text.joined ", " d.inputLanguages ++ " → " ++ outputs,
     "  Executable: " ++ t.executable.text ++ " " ++ (if t.found then "✓" else "· not found")] ++
    (if d.parameters.isEmpty then []
    else "  Parameters:" :: d.parameters.flatMap (parameterLines verbose))

/-- The report on tools for readers. -/
def toolsText (verbose : Bool) (tools : List ToolInfo) : String :=
  unlines (tools.flatMap (toolLines verbose) ++ [""])

/-- The document of a tool. -/
def toolDocument (t : ToolInfo) : Document :=
  .table
    ((t.descriptor.toDocument.entries?.getD []) ++
      [("executable", .text t.executable.text), ("found", .bool t.found)])

/-- The document of tools. -/
def toolsDocument (tools : List ToolInfo) : Document := .list (tools.map toolDocument)

/-! ## Pipelines -/

/-- The tools of a definition's steps. -/
def toolNames (d : Definition) : List String := d.steps.map Step.tool

/-- A line in the second column of the list of pipelines. -/
def inSecondColumn (text : String) : String := "  " ++ Text.padRight 20 "" ++ " " ++ text

/-- A step's arguments as a sorted list. -/
def argumentsText (s : Step) : String :=
  Text.joined ", " ((s.arguments.entries.map fun entry => entry.1 ++ "=" ++ entry.2).mergeSort
    fun a b => decide (a ≤ b))

/-- The lines about steps from the one at `index` on. -/
def definitionSteps (index : Nat) : List Step → List String
  | [] => []
  | s :: rest =>
    inSecondColumn (Integer.naturalText (index + 1) ++ ". " ++ s.tool ++ " " ++ argumentsText s) ::
      definitionSteps (index + 1) rest

/-- The lines about a definition. -/
def definitionLines (detailed : Bool) (d : Definition) : List String :=
  ("  " ++ Text.padRight 20 d.name ++ " " ++ Text.joined " → " (toolNames d)) ::
    ((if d.description.isEmpty then [] else [inSecondColumn d.description]) ++
      (if detailed then
        (d.language.map fun language => inSecondColumn ("input: " ++ language)).toList ++
          definitionSteps 0 d.steps
      else []))

/-- The texts of the events that tell of skipped files. -/
def skippedFiles (events : List LoadEvent) : List String :=
  events.filterMap fun
    | .skipped path fault => some (path.text ++ ": " ++ fault.message)
    | .loaded _ _ => none

/-- A line that asks for attention. -/
def attention (text : String) : String := "  ⚠ " ++ text

/-- The report on a library for readers. -/
def pipelinesText (detailed : Bool) (dir : Option Path) (l : Library) (skipped : List String) :
    String :=
  match dir with
  | none =>
    unlines
      ["No pipeline directory configured.",
       "Set [pipelines] dir in shaderpipe.toml to use named pipelines."]
  | some dir =>
    unlines
      (["", "Pipelines in " ++ dir.text, rule] ++
        (if l.size = 0 then ["  (none)"] else []) ++
        l.entries.flatMap (fun entry => definitionLines detailed entry.definition) ++
        (if skipped.isEmpty then [] else ["", "Errors:"] ++ skipped.map attention) ++ [""])

/-- The document of an entry of a library. -/
def entryDocument (entry : LoadedPipeline) : Document :=
  .table
    [("name", .text entry.definition.name), ("description", .text entry.definition.description),
     ("language", .optionalText entry.definition.language), ("path", .text entry.path.text),
     ("steps", .texts (toolNames entry.definition))]

/-- The document of a library. -/
def pipelinesDocument (dir : Option Path) (l : Library) (skipped : List String) : Document :=
  .table
    [("dir", .optionalText (dir.map Path.text)), ("pipelines", .list (l.entries.map entryDocument)),
     ("errors", .texts skipped)]

/-! ## Configuration -/

/-- The lines about the files that a configuration comes from. -/
def sourceLines (l : LoadedConfig) : List String :=
  if l.loadedFrom.isEmpty then ["No config files loaded (using defaults)", ""]
  else ["Config files:"] ++ l.loadedFrom.map (fun path => "  " ++ path.text) ++ [""]

/-- The lines about the tools of a configuration. -/
def toolsSectionLines (s : ToolsSection) : List String :=
  ["Tools:",
   "  binaries: " ++ (s.binariesDir.map Path.text).getD "(PATH)",
   "  timeout:  " ++ Integer.naturalText s.timeoutSeconds.toNat ++ "s"] ++
    s.executables.entries.map (fun entry =>
      "  " ++ Text.padRight 12 entry.1 ++ " -> " ++ entry.2.text) ++
    s.versions.entries.map (fun entry =>
      "  " ++ Text.padRight 12 entry.1 ++ " versions: trunk, " ++ Text.joined ", " entry.2) ++
    [""]

/-- The lines about the pipelines of a configuration. -/
def pipelinesSectionLines (s : PipelinesSection) : List String :=
  match s.dir with
  | some dir => ["Pipelines:", "  dir: " ++ dir.text, ""]
  | none => []

/-- The lines about the logging of a configuration. -/
def loggingSectionLines (s : LoggingSection) : List String :=
  ["Logging:", "  level: " ++ s.level] ++
    (s.fileDir.map fun dir => "  files: " ++ dir.text).toList ++ [""]

/-- The lines about what deserves attention. -/
def warningLines (warnings : List ConfigWarning) : List String :=
  if warnings.isEmpty then []
  else ["Warnings:"] ++ warnings.map (fun w => attention w.message) ++ [""]

/-- The lines of the configuration as it would be written to a file. -/
def rawLines (c : Config) : List String := ["---", "Raw config:", ""] ++ c.write?.toList

/-- The report on a configuration for readers. -/
def configText (verbose : Bool) (l : LoadedConfig) : String :=
  unlines
    (["# shaderpipe Configuration", ""] ++ sourceLines l ++
      toolsSectionLines l.config.effectiveTools ++
      pipelinesSectionLines l.config.effectivePipelines ++
      loggingSectionLines l.config.effectiveLogging ++ warningLines l.warnings ++
      (if verbose then rawLines l.config else []))

/-- The line about a file that was looked at. -/
def sourceLine (s : ConfigSource) : String :=
  "  " ++ (if s.loaded then "✓ loaded" else "· not found") ++ " " ++ s.path.text

/-- How many files were taken, in words. -/
def loadedCount (count : Nat) : String :=
  if count = 0 then "No config files found. Run 'shaderpipe config init' to create one."
  else Integer.naturalText count ++ " config file(s) loaded."

/-- The report on the files of a configuration for readers. -/
def sourcesText (l : LoadedConfig) : String :=
  unlines
    (["Config file search order (later overrides earlier):", ""] ++ l.sources.map sourceLine ++
      ["", loadedCount l.loadedFrom.length])

/-- The document of the files of a configuration. -/
def sourcesDocument (l : LoadedConfig) : Document :=
  .list (l.sources.map fun s => .table [("path", .text s.path.text), ("loaded", .bool s.loaded)])

/-- A configuration to start from. -/
def configTemplate : String :=
  unlines
    ["# shaderpipe Configuration",
     "",
     "[tools]",
     "# Directory holding fxc, dxc, glslangValidator, spirv-cross, hlslcc-shim, malioc.",
     "# Unset: executables are looked up on PATH.",
     "# binaries_dir = \"/opt/shader-tools/bin\"",
     "timeout_secs = 30",
     "",
     "# Per-tool executable overrides",
     "# [tools.executables]",
     "# mali = \"/opt/arm/mali_offline_compiler/malioc\"",
     "",
     "# Versions selectable per step with Version=..., besides trunk.",
     "# Each lives at <binaries_dir>/<tool>/<version>/<executable>.",
     "# [tools.versions]",
     "# fxc = [\"10.0.10240.16384\"]",
     "# mali = [\"6.2.0\"]",
     "",
     "# Named pipelines: one <name>.toml per pipeline",
     "# [pipelines]",
     "# dir = \"pipelines\"",
     "",
     "[logging]",
     "level = \"info\"",
     "# Daily-rotated JSON logs",
     "# file_dir = \"logs\""]

end ShaderChain.CommandLine
