import ShaderChain.Adapter.Dxc
import ShaderChain.Adapter.Fxc
import ShaderChain.Adapter.Glslang
import ShaderChain.Adapter.Hlslcc
import ShaderChain.Adapter.Mali
import ShaderChain.Adapter.SpirvCross
import ShaderChain.Registry

/-!
# The built-in tools

The six adapters, in the order in which they are registered.
-/

set_option autoImplicit false

namespace ShaderChain.Adapter

/-- The names of the built-in tools with the usual names of their programs. -/
def programs : List (String × String) :=
  [(Fxc.name, Fxc.executable), (Dxc.name, Dxc.executable), (Glslang.name, Glslang.executable),
   (SpirvCross.name, SpirvCross.executable), (Hlslcc.name, Hlslcc.executable),
   (Mali.name, Mali.executable)]

/-- What the built-in tools can do, apart from their versions. -/
def descriptors : List ToolDescriptor :=
  [Fxc.descriptor, Dxc.descriptor, Glslang.descriptor, SpirvCross.descriptor, Hlslcc.descriptor,
   Mali.descriptor]

/-- What the built-in tool of a name can do, apart from its versions. -/
def descriptor? (name : String) : Option ToolDescriptor := descriptors.find? (·.name == name)

variable {m : Type → Type} [Monad m]

/-- The built-in tools with one toolchain on a host. -/
def builtin (toolchain : Toolchain) (host : Host m) : List (Tool m) :=
  [Fxc.tool toolchain host, Dxc.tool toolchain host, Glslang.tool toolchain host,
   SpirvCross.tool toolchain host, Hlslcc.tool toolchain host, Mali.tool toolchain host]

/-- The registry of the built-in tools as a configuration has them. -/
def registry (tools : ToolsSection) (host : Host m) : Registry m × Option PipelineError :=
  Registry.empty.registerAll (builtin (.ofSection tools) host)

end ShaderChain.Adapter
