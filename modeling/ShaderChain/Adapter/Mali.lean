import ShaderChain.Adapter.Parameters
import ShaderChain.Tool.Basic
import ShaderChain.Toolchain
import ShaderChain.Workspace

/-!
# The tool `mali`

Reports on the performance of GLSL or SPIR-V. The report is an output for
readers; there is nothing for a next step.
-/

set_option autoImplicit false

namespace ShaderChain.Adapter.Mali

/-- The name of the tool. -/
def name : String := "mali"

/-- The usual name of its program. -/
def executable : String := "malioc"

/-- The name of the parameter for the processor. -/
def coreName : String := "Core"

/-- The processors that can be reported on. -/
def cores : List String :=
  ["Mali-G31", "Mali-G51", "Mali-G52", "Mali-G57", "Mali-G71", "Mali-G72", "Mali-G76", "Mali-G77",
   "Mali-G78", "Mali-G710"]

/-- What the tool can do, apart from its versions. -/
def descriptor : ToolDescriptor where
  name := name
  displayName := "Mali Offline Compiler"
  description := "Arm's static performance analyzer for Mali GPUs"
  inputLanguages := [Language.glsl, Language.spirv]
  outputLanguages := []
  parameters :=
    [shaderStage, (Parameter.choice coreName cores "Mali-G72").describedAs "Target GPU",
     entryPoint "main"]

/-- The option for a stage. -/
def stageOption (stage : String) : String :=
  if stage = "vert" then "--vertex"
  else if stage = "tesc" then "--tessellation_control"
  else if stage = "tese" then "--tessellation_evaluation"
  else if stage = "geom" then "--geometry"
  else if stage = "comp" then "--compute"
  else "--fragment"

/-- The options that input in SPIR-V needs. -/
def spirvOptions (args : BoundArguments) (language : String) : Except ToolError (List String) := do
  if language = Language.spirv then return ["--spirv", "--name", ← args.string entryPointName]
  return []

/-- The command line that reports on `input`, in a language. -/
def commandLine (args : BoundArguments) (language : String) (input : Path) :
    Except ToolError (List String) := do
  let core ← args.string coreName
  let stage ← args.string shaderStageName
  let spirv ← spirvOptions args language
  return ["--core", core, stageOption stage] ++ spirv ++ [input.text]

variable {m : Type → Type} [Monad m]

/-- Reports on an artifact. -/
def compile (toolchain : Toolchain) (host : Host m) (input : Artifact) (args : BoundArguments) :
    ExceptT ToolError m StepResult :=
  host.inWorkspace input fun w => do
    let arguments ← commandLine args input.language w.input
    let program ← toolchain.program name executable args
    let output ← w.runChecked host program arguments toolchain.limit
    return StepResult.terminal [.text "Output" none output.output]

/-- The tool on a host. -/
def tool (toolchain : Toolchain) (host : Host m) : Tool m where
  descriptor := descriptor.withParameter (toolchain.versionParameter name)
  compile := compile toolchain host

end ShaderChain.Adapter.Mali
