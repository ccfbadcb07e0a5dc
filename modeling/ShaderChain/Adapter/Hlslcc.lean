import ShaderChain.Adapter.Parameters
import ShaderChain.Tool.Basic
import ShaderChain.Toolchain
import ShaderChain.Workspace

/-!
# The tool `hlslcc`

Turns DXBC bytecode into source text, GLSL or Metal. Its program takes the
input, the number of the output language, and the output.
-/

set_option autoImplicit false

namespace ShaderChain.Adapter.Hlslcc

/-- The name of the tool. -/
def name : String := "hlslcc"

/-- The usual name of its program. -/
def executable : String := "hlslcc-shim"

/-- The file for the source text. -/
def sourceFile : String := "shader.out"

/-- The languages that can be emitted. -/
def languages : List String := [Language.glsl, Language.metal]

/-- What the tool can do, apart from its versions. -/
def descriptor : ToolDescriptor where
  name := name
  displayName := "HLSLcc"
  description := "Unity Technologies' DirectX shader bytecode cross compiler"
  inputLanguages := [Language.dxbc]
  outputLanguages := languages
  parameters := [Parameter.outputLanguage languages Language.glsl]

/-- The number of an output language. -/
def languageNumber (language : String) : String := if language = Language.metal then "14" else "0"

/-- The command line that turns `input` into `output`. -/
def commandLine (args : BoundArguments) (input output : Path) :
    Except ToolError (List String) := do
  return [input.text, languageNumber (← args.string outputLanguageName), output.text]

variable {m : Type → Type} [Monad m]

/-- Compiles an artifact. -/
def compile (toolchain : Toolchain) (host : Host m) (input : Artifact) (args : BoundArguments) :
    ExceptT ToolError m StepResult := do
  let language ← args.string outputLanguageName
  host.inWorkspace input fun w => do
    let arguments ← commandLine args w.input (w.path sourceFile)
    let program ← toolchain.program name executable args
    let _ ← w.runChecked host program arguments toolchain.limit
    let source ← w.readText host sourceFile
    return StepResult.forward (.text language source) [.text "Output" (some language) source]

/-- The tool on a host. -/
def tool (toolchain : Toolchain) (host : Host m) : Tool m where
  descriptor := descriptor.withParameter (toolchain.versionParameter name)
  compile := compile toolchain host

end ShaderChain.Adapter.Hlslcc
