import ShaderChain.Adapter.Parameters
import ShaderChain.Tool.Basic
import ShaderChain.Toolchain
import ShaderChain.Workspace

/-!
# The tool `dxc`

Compiles HLSL to DXIL or SPIR-V, with a listing, and then has the program print
the syntax tree of the input. The tree is for information only: a step never
fails for want of it.
-/

set_option autoImplicit false

namespace ShaderChain.Adapter.Dxc

/-- The name of the tool. -/
def name : String := "dxc"

/-- The usual name of its program. -/
def executable : String := "dxc"

/-- The name of the flag for 16-bit types. -/
def enable16BitTypesName : String := "Enable16BitTypes"

/-- The name of the parameter for the target environment of SPIR-V. -/
def spirvTargetName : String := "SpirvTarget"

/-- The file for the compiled program. -/
def objectFile : String := "shader.bin"

/-- The file for the listing. -/
def listingFile : String := "shader.txt"

/-- The profiles that can be compiled for. -/
def profiles : List String :=
  ["vs_6_0", "ps_6_0", "gs_6_0", "hs_6_0", "ds_6_0", "cs_6_0", "vs_6_2", "ps_6_2", "cs_6_2",
   "vs_6_6", "ps_6_6", "cs_6_6", "lib_6_3", "lib_6_6"]

/-- The target environments of SPIR-V. -/
def spirvTargets : List String := ["vulkan1.0", "vulkan1.1", "vulkan1.2", "vulkan1.3"]

/-- What the tool can do, apart from its versions. -/
def descriptor : ToolDescriptor where
  name := name
  displayName := "DXC"
  description := "Microsoft's LLVM-based HLSL compiler, producing DXIL or SPIR-V"
  inputLanguages := [Language.hlsl]
  outputLanguages := [Language.dxil, Language.spirv]
  parameters :=
    [entryPoint "main", targetProfile profiles "ps_6_0", disableOptimizations, optimizationLevel 3,
     (Parameter.boolean enable16BitTypesName false).describedAs
       "Enable native 16-bit types (shader model 6.2+)",
     (Parameter.choice spirvTargetName spirvTargets "vulkan1.0").describedAs
       "Target environment when emitting SPIR-V",
     extraOptions, Parameter.outputLanguage [Language.dxil, Language.spirv] Language.dxil]

/-- The options that compiling and printing the syntax tree share. -/
def sharedOptions (args : BoundArguments) : Except ToolError (List String) := do
  let profile ← args.string targetProfileName
  let entry ← args.string entryPointName
  let types := if ← args.boolean enable16BitTypesName then ["-enable-16bit-types"] else []
  let options ← splitExtraOptions args
  return ["-T", profile, "-E", entry] ++ types ++ options

/-- The option for the optimization level. -/
def optimization (args : BoundArguments) : Except ToolError String := do
  if ← args.boolean disableOptimizationsName then return "-Od"
  return "-O" ++ (← integerText args optimizationLevelName)

/-- The options that select SPIR-V. -/
def spirvOptions (args : BoundArguments) : Except ToolError (List String) := do
  if (← args.string outputLanguageName) = Language.spirv then
    return ["-spirv", "-fspv-target-env=" ++ (← args.string spirvTargetName)]
  return []

/-- The command line that compiles `input` to `object` with a `listing`. -/
def commandLine (args : BoundArguments) (input object listing : Path) :
    Except ToolError (List String) := do
  let shared ← sharedOptions args
  let optimization ← optimization args
  let spirv ← spirvOptions args
  return shared ++ [optimization] ++ spirv ++
    ["-Fo", object.text, "-Fc", listing.text, input.text]

/-- The command line that prints the syntax tree of `input`. -/
def treeCommandLine (args : BoundArguments) (input : Path) : Except ToolError (List String) := do
  return (← sharedOptions args) ++ ["-ast-dump", input.text]

/-- The text shown for the syntax tree: what the program printed if it succeeded, else what is to
be said about its failure. -/
def treeText : Except ToolError ProcessOutput → String
  | .ok output => if output.succeeded then output.output else output.diagnostics
  | .error error => error.message

variable {m : Type → Type} [Monad m]

/-- Compiles an artifact. -/
def compile (toolchain : Toolchain) (host : Host m) (input : Artifact) (args : BoundArguments) :
    ExceptT ToolError m StepResult := do
  let language ← args.string outputLanguageName
  let program ← toolchain.program name executable args
  host.inWorkspace input fun w => do
    let arguments ← commandLine args w.input (w.path objectFile) (w.path listingFile)
    let _ ← w.runChecked host program arguments toolchain.limit
    let object ← w.readBytes host objectFile
    let listing ← w.readTextIfThere host listingFile
    let treeArguments ← treeCommandLine args w.input
    let tree ← settled (w.run host program treeArguments toolchain.limit)
    return StepResult.forward (.binary language object)
      [.text "Disassembly" (some language) (listing.getD ""), .text "AST" none (treeText tree)]

/-- The tool on a host. -/
def tool (toolchain : Toolchain) (host : Host m) : Tool m where
  descriptor := descriptor.withParameter (toolchain.versionParameter name)
  compile := compile toolchain host

end ShaderChain.Adapter.Dxc
