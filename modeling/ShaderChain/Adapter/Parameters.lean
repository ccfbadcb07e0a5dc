import ShaderChain.Parameter.Binding

/-!
# Parameters of several tools

Parameters that the built-in tools have in common, and how the free options
among them are cut into options.
-/

set_option autoImplicit false

namespace ShaderChain.Adapter

/-- The name of the parameter for the entry point. -/
def entryPointName : String := "EntryPoint"

/-- The name of the parameter for the stage of a shader. -/
def shaderStageName : String := "ShaderStage"

/-- The name of the parameter for the profile of a compilation. -/
def targetProfileName : String := "TargetProfile"

/-- The name of the flag against optimizations. -/
def disableOptimizationsName : String := "DisableOptimizations"

/-- The name of the parameter for the optimization level. -/
def optimizationLevelName : String := "OptimizationLevel"

/-- The name of the parameter for free options. -/
def extraOptionsName : String := "ExtraOptions"

/-- The stages of a shader. -/
def shaderStages : List String := ["vert", "tesc", "tese", "geom", "frag", "comp"]

/-- The entry point, a free text. -/
def entryPoint (default : String) : Parameter :=
  (Parameter.string entryPointName default).describedAs "Entry point function name"

/-- The stage of a shader. -/
def shaderStage : Parameter :=
  (Parameter.choice shaderStageName shaderStages "frag").describedAs "Shader stage"

/-- The profile of a compilation. -/
def targetProfile (profiles : List String) (default : String) : Parameter :=
  (Parameter.choice targetProfileName profiles default).describedAs "Shader model and stage"

/-- The flag against optimizations. -/
def disableOptimizations : Parameter :=
  (Parameter.boolean disableOptimizationsName false).describedAs "Compile without optimizations"

/-- The optimization level. -/
def optimizationLevel (default : Int64) : Parameter :=
  (Parameter.integerIn optimizationLevelName 0 3 default).describedAs
    "Optimization level (ignored when optimizations are disabled)"

/-- Free options. -/
def extraOptions : Parameter :=
  (Parameter.string extraOptionsName "").describedAs
    "Additional command-line options, separated by whitespace"

/-- The free options one by one. -/
def splitExtraOptions (args : BoundArguments) : Except ToolError (List String) :=
  (args.string extraOptionsName).map Text.words

/-- An integer argument as text. -/
def integerText (args : BoundArguments) (name : String) : Except ToolError String :=
  (args.integer name).map fun value => Integer.text value.toInt

end ShaderChain.Adapter
