import ShaderChain.CommandLine.Grammar
import ShaderChain.Machine.Path

/-!
# Requests

What a command line asks for: to run a shader through steps, to list tools or
pipelines, or to look after the configuration. The grammar of the command line
is a value (`grammar`), and `Request.ofWords` reads a request with it.
-/

set_option autoImplicit false

namespace ShaderChain.CommandLine

/-- To run an input through steps, given one by one or as a pipeline. -/
structure RunRequest where
  /-- The path of the input, as it is displayed. -/
  input : Path
  /-- Whether the path of the input is a text: those that a system allows need not be. -/
  inputIsText : Bool
  language : Option String
  steps : List String
  pipeline : Option String
  outDir : Option Path
deriving DecidableEq

/-- What to do with the configuration: to show what is in effect, which files it comes from, or
the path of the user's file; or to make a file, the project's or the user's. -/
inductive ConfigRequest where
  | show
  | which
  | path
  | init (isLocal : Bool)
deriving DecidableEq

/-- What is to be done. -/
inductive Command where
  | run (r : RunRequest)
  | tools (name : Option String)
  | pipelines (detailed : Bool)
  | config (r : ConfigRequest)
deriving DecidableEq

/-- What is to be done, and how to report on it. -/
structure Request where
  verbose : Bool
  json : Bool
  command : Command
deriving DecidableEq

/-- A flag without a letter. -/
def flagRule (name : String) (letter : Option Char) : OptionRule := ⟨name, letter, .flag name⟩

/-- A setting that is given at most once. -/
def settingRule (name : String) (letter : Char) (isPath : Bool) : OptionRule :=
  ⟨name, some letter, .setting ⟨name, false, isPath⟩⟩

/-- The options that every command has. -/
def sharedOptions : List OptionRule :=
  [flagRule "verbose" (some 'v'), flagRule "json" none, ⟨"help", some 'h', .help⟩,
   ⟨"version", some 'V', .version⟩]

/-- A command without arguments. -/
def plainCommand : CommandRule := .mk sharedOptions none [] []

/-- The command that runs an input through steps. -/
def runRule : CommandRule :=
  .mk
    ([settingRule "language" 'l' false, ⟨"step", some 's', .setting ⟨"step", true, false⟩⟩,
      settingRule "pipeline" 'p' false, settingRule "out-dir" 'o' true] ++ sharedOptions)
    (some ⟨⟨"input", false, true⟩, true⟩) [("step", "pipeline")] []

/-- The command that lists tools. -/
def toolsRule : CommandRule := .mk sharedOptions (some ⟨⟨"name", false, false⟩, false⟩) [] []

/-- The command that lists pipelines. -/
def pipelinesRule : CommandRule :=
  .mk (flagRule "detailed" (some 'd') :: sharedOptions) none [] []

/-- The command that looks after the configuration. -/
def configRule : CommandRule :=
  .mk sharedOptions none []
    [("show", plainCommand), ("which", plainCommand), ("path", plainCommand),
     ("init", .mk (flagRule "local" none :: sharedOptions) none [] [])]

/-- The grammar of command lines. -/
def grammar : CommandRule :=
  .mk sharedOptions none []
    [("run", runRule), ("tools", toolsRule), ("pipelines", pipelinesRule), ("config", configRule)]

namespace RunRequest

/-- The request to run that was found on a command line, whose words are texts. -/
def ofFound (f : Found) : RunRequest where
  input := ⟨(f.value? "input").getD ""⟩
  inputIsText := true
  language := f.value? "language"
  steps := f.valuesOf "step"
  pipeline := f.value? "pipeline"
  outDir := (f.value? "out-dir").map Path.mk

end RunRequest

namespace Command

/-- The command with the given names, what was found of the last of them being `f`. -/
def ofNames? (f : Found) : List String → Option Command
  | ["run"] => some (.run (.ofFound f))
  | ["tools"] => some (.tools (f.value? "name"))
  | ["pipelines"] => some (.pipelines (f.flags.contains "detailed"))
  | ["config", "show"] => some (.config .show)
  | ["config", "which"] => some (.config .which)
  | ["config", "path"] => some (.config .path)
  | ["config", "init"] => some (.config (.init (f.flags.contains "local")))
  | _ => none

end Command

namespace Request

/-- The request that the words of a command line make. A flag that every command has counts
wherever it stands. -/
def ofWords (words : List String) : Except UsageError Request :=
  (parse grammar words).bind fun (names, found) =>
    match Command.ofNames? (found.getLast?.getD .nothing) names with
    | some command =>
      .ok ⟨found.any (·.flags.contains "verbose"), found.any (·.flags.contains "json"), command⟩
    | none => .error .missingSubcommand

end Request

end ShaderChain.CommandLine
