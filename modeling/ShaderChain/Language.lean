import ShaderChain.Text.Split

/-!
# Languages

A language is named by a tag, a plain text; tools may bring tags of their own.
For the tags that the built-in tools exchange the library knows the extension of
a source file, the extensions a file is recognised by, and whether programs in
the language are bytecode.
-/

set_option autoImplicit false

namespace ShaderChain.Language

/-- The tag of the High-Level Shading Language. -/
def hlsl : String := "HLSL"

/-- The tag of the OpenGL Shading Language. -/
def glsl : String := "GLSL"

/-- The tag of Slang. -/
def slang : String := "Slang"

/-- The tag of the Metal Shading Language. -/
def metal : String := "Metal"

/-- The tag of DirectX bytecode. -/
def dxbc : String := "DXBC"

/-- The tag of the DirectX intermediate language. -/
def dxil : String := "DXIL"

/-- The tag of SPIR-V. -/
def spirv : String := "SPIR-V"

/-- The extension of a file in the language, `tmp` for a language that is not known. -/
def fileExtension (language : String) : String :=
  if language = hlsl then "hlsl"
  else if language = glsl then "glsl"
  else if language = slang then "slang"
  else if language = metal then "metal"
  else if language = dxbc then "dxbc"
  else if language = dxil then "dxil"
  else if language = spirv then "spv"
  else "tmp"

/-- The extensions that a file is recognised by, with their languages. -/
def byExtension : List (String × String) :=
  [("hlsl", hlsl), ("hlsli", hlsl), ("fx", hlsl),
   ("glsl", glsl), ("vert", glsl), ("frag", glsl), ("comp", glsl), ("geom", glsl),
   ("tesc", glsl), ("tese", glsl),
   ("slang", slang), ("metal", metal), ("dxbc", dxbc), ("cso", dxbc), ("dxil", dxil),
   ("spv", spirv), ("spirv", spirv)]

/-- The language of a file with the given extension, whose case does not matter. -/
def ofExtension? (extension : String) : Option String :=
  byExtension.lookup (Text.lowerAscii extension)

/-- Whether programs in the language are bytecode rather than source text. -/
def isBinary (language : String) : Bool :=
  language = dxbc || language = dxil || language = spirv

end ShaderChain.Language
