import ShaderChain.Adapter.Parameters
import ShaderChain.Tool.Basic
import ShaderChain.Toolchain
import ShaderChain.Workspace

/-!
# The tool `fxc`

Compiles HLSL to DXBC bytecode, with a listing of it beside.
-/

set_option autoImplicit false

namespace ShaderChain.Adapter.Fxc

/-- The name of the tool. -/
def name : String := "fxc"

/-- The usual name of its program. -/
def executable : String := "fxc"

/-- The file for the bytecode. -/
def objectFile : String := "shader.dxbc"

/-- The file for the listing. -/
def listingFile : String := "shader.asm"

/-- The profiles that can be compiled for. -/
def profiles : List String :=
  ["vs_4_0", "ps_4_0", "gs_4_0", "cs_4_0", "vs_5_0", "ps_5_0", "gs_5_0", "hs_5_0", "ds_5_0",
   "cs_5_0", "vs_5_1", "ps_5_1", "gs_5_1", "hs_5_1", "ds_5_1", "cs_5_1"]

/-- What the tool can do, apart from its versions. -/
def descriptor : ToolDescriptor where
  name := name
  displayName := "FXC"
  description := "Microsoft's legacy HLSL compiler, producing DXBC bytecode"
  inputLanguages := [Language.hlsl]
  outputLanguages := [Language.dxbc]
  parameters :=
    [entryPoint "main", targetProfile profiles "ps_5_0", disableOptimizations, optimizationLevel 1]

/-- The option for the optimization level. -/
def optimization (args : BoundArguments) : Except ToolError String := do
  if ← args.boolean disableOptimizationsName then return "/Od"
  return "/O" ++ (← integerText args optimizationLevelName)

/-- The command line that compiles `input` to `object` with a `listing`. -/
def commandLine (args : BoundArguments) (input object listing : Path) :
    Except ToolError (List String) := do
  let optimization ← optimization args
  let profile ← args.string targetProfileName
  let entry ← args.string entryPointName
  return ["/nologo", "/T", profile, "/E", entry, optimization, "/Fo", object.text, "/Fc",
    listing.text, input.text]

variable {m : Type → Type} [Monad m]

/-- Compiles an artifact. -/
def compile (toolchain : Toolchain) (host : Host m) (input : Artifact) (args : BoundArguments) :
    ExceptT ToolError m StepResult :=
  host.inWorkspace input fun w => do
    let arguments ← commandLine args w.input (w.path objectFile) (w.path listingFile)
    let program ← toolchain.program name executable args
    let _ ← w.runChecked host program arguments toolchain.limit
    let object ← w.readBytes host objectFile
    let listing ← w.readTextIfThere host listingFile
    return (StepResult.forward (.binary Language.dxbc object)
      [.binary "Object" (some Language.dxbc) object,
       .text "Disassembly" (some Language.dxbc) (listing.getD "")]).select 1

/-- The tool on a host. -/
def tool (toolchain : Toolchain) (host : Host m) : Tool m where
  descriptor := descriptor.withParameter (toolchain.versionParameter name)
  compile := compile toolchain host

end ShaderChain.Adapter.Fxc
