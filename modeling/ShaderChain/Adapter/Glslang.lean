import ShaderChain.Adapter.Parameters
import ShaderChain.Tool.Basic
import ShaderChain.Toolchain
import ShaderChain.Workspace

/-!
# The tool `glslang`

Compiles GLSL or HLSL to SPIR-V; what its program prints is the module in a form
for readers.
-/

set_option autoImplicit false

namespace ShaderChain.Adapter.Glslang

/-- The name of the tool. -/
def name : String := "glslang"

/-- The usual name of its program. -/
def executable : String := "glslangValidator"

/-- The name of the parameter for the target. -/
def targetName : String := "Target"

/-- The file for the module. -/
def moduleFile : String := "shader.spv"

/-- What the tool can do, apart from its versions. -/
def descriptor : ToolDescriptor where
  name := name
  displayName := "glslang"
  description := "Khronos reference front end for GLSL and HLSL, producing SPIR-V"
  inputLanguages := [Language.glsl, Language.hlsl]
  outputLanguages := [Language.spirv]
  parameters :=
    [shaderStage,
     (Parameter.choice targetName ["Vulkan 1.0", "Vulkan 1.1", "Vulkan 1.2", "OpenGL"]
       "Vulkan 1.0").describedAs "Client API the SPIR-V is generated for",
     entryPoint "main"]

/-- The options that select the target, which is `OpenGL` or a version of Vulkan. -/
def targetOptions (target : String) : List String :=
  if target = "OpenGL" then ["-G", "--target-env", "opengl"]
  else ["-V", "--target-env", "vulkan" ++ Text.dropLeading "Vulkan " target]

/-- The options that input in HLSL needs. -/
def hlslOptions (args : BoundArguments) (language : String) : Except ToolError (List String) := do
  if language = Language.hlsl then return ["-D", "-e", ← args.string entryPointName]
  return []

/-- The command line that compiles `input`, in a language, to `output`. -/
def commandLine (args : BoundArguments) (language : String) (input output : Path) :
    Except ToolError (List String) := do
  let target ← args.string targetName
  let stage ← args.string shaderStageName
  let hlsl ← hlslOptions args language
  return targetOptions target ++ ["-S", stage] ++ hlsl ++ ["-H", "-o", output.text, input.text]

variable {m : Type → Type} [Monad m]

/-- Compiles an artifact. -/
def compile (toolchain : Toolchain) (host : Host m) (input : Artifact) (args : BoundArguments) :
    ExceptT ToolError m StepResult :=
  host.inWorkspace input fun w => do
    let arguments ← commandLine args input.language w.input (w.path moduleFile)
    let program ← toolchain.program name executable args
    let output ← w.runChecked host program arguments toolchain.limit
    let module ← w.readBytes host moduleFile
    return StepResult.forward (.binary Language.spirv module)
      [.text "Disassembly" (some Language.spirv) output.output]

/-- The tool on a host. -/
def tool (toolchain : Toolchain) (host : Host m) : Tool m where
  descriptor := descriptor.withParameter (toolchain.versionParameter name)
  compile := compile toolchain host

end ShaderChain.Adapter.Glslang
