import ShaderChain.Adapter.Parameters
import ShaderChain.Tool.Basic
import ShaderChain.Toolchain
import ShaderChain.Workspace

/-!
# The tool `spirv-cross`

Turns SPIR-V back into source text: GLSL, HLSL or Metal.
-/

set_option autoImplicit false

namespace ShaderChain.Adapter.SpirvCross

/-- The name of the tool. -/
def name : String := "spirv-cross"

/-- The usual name of its program. -/
def executable : String := "spirv-cross"

/-- The name of the parameter for the version of GLSL. -/
def glslVersionName : String := "GlslVersion"

/-- The name of the flag for GLSL ES. -/
def glslEsName : String := "GlslEs"

/-- The name of the parameter for the shader model of HLSL. -/
def hlslShaderModelName : String := "HlslShaderModel"

/-- The file for the source text. -/
def sourceFile : String := "shader.out"

/-- The languages that can be emitted. -/
def languages : List String := [Language.glsl, Language.hlsl, Language.metal]

/-- What the tool can do, apart from its versions. Without an entry point the only one of the
module is meant. -/
def descriptor : ToolDescriptor where
  name := name
  displayName := "SPIRV-Cross"
  description := "Khronos SPIR-V decompiler targeting GLSL, HLSL and Metal"
  inputLanguages := [Language.spirv]
  outputLanguages := languages
  parameters :=
    [Parameter.integerIn glslVersionName 100 460 450,
     (Parameter.boolean glslEsName false).describedAs "Emit GLSL ES",
     (Parameter.integerIn hlslShaderModelName 30 66 50).describedAs
       "HLSL shader model, e.g. 50 for SM 5.0",
     entryPoint "", Parameter.outputLanguage languages Language.glsl]

/-- The options that select the output language. -/
def languageOptions (args : BoundArguments) (language : String) :
    Except ToolError (List String) := do
  if language = Language.hlsl then
    return ["--hlsl", "--shader-model", ← integerText args hlslShaderModelName]
  else if language = Language.metal then return ["--msl"]
  else
    let version ← integerText args glslVersionName
    return ["--version", version] ++ (if ← args.boolean glslEsName then ["--es"] else [])

/-- The options that select an entry point, unless it is empty. -/
def entryOptions (entry : String) : List String := if entry.isEmpty then [] else ["--entry", entry]

/-- The command line that turns `input` into `output`. -/
def commandLine (args : BoundArguments) (input output : Path) :
    Except ToolError (List String) := do
  let language ← languageOptions args (← args.string outputLanguageName)
  let entry ← args.string entryPointName
  return [input.text, "--output", output.text] ++ language ++ entryOptions entry

variable {m : Type → Type} [Monad m]

/-- Compiles an artifact. -/
def compile (toolchain : Toolchain) (host : Host m) (input : Artifact) (args : BoundArguments) :
    ExceptT ToolError m StepResult := do
  let language ← args.string outputLanguageName
  host.inWorkspace input fun w => do
    let arguments ← commandLine args w.input (w.path sourceFile)
    let program ← toolchain.program name executable args
    let _ ← w.runChecked host program arguments toolchain.limit
    let source ← w.readText host sourceFile
    return StepResult.forward (.text language source) [.text "Output" (some language) source]

/-- The tool on a host. -/
def tool (toolchain : Toolchain) (host : Host m) : Tool m where
  descriptor := descriptor.withParameter (toolchain.versionParameter name)
  compile := compile toolchain host

end ShaderChain.Adapter.SpirvCross
