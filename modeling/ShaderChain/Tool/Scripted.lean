import ShaderChain.Tool.Basic

/-!
# Scripted tools

Tools that answer by a script instead of running a program, for rehearsing a
pipeline. Every call is noted, in order, with its input and its arguments.
-/

set_option autoImplicit false

namespace ShaderChain

/-- The types that an argument can be asked for. -/
inductive ArgumentType where
  | string
  | boolean
  | integer
deriving DecidableEq, Repr

/-- The value of an argument of a type. -/
def BoundArguments.ofType (args : BoundArguments) (type : ArgumentType) (name : String) :
    Except ToolError ArgumentValue :=
  match type with
  | .string => (args.string name).map .string
  | .boolean => (args.boolean name).map .bool
  | .integer => (args.integer name).map .int

/-- How a scripted tool answers. -/
inductive ToolScript where
  /-- With an artifact in a language that tells the tool and the language of its input. -/
  | emit (language : String)
  /-- The same, in the language that the arguments select. -/
  | follow
  /-- With its input, said to be in a language, and the arguments as a text. -/
  | echo (language : String)
  /-- With a text for the reader and nothing for a next step. -/
  | finish (text : String)
  /-- With the value of an argument as an artifact in a language. -/
  | require (type : ArgumentType) (name language : String)
  /-- With a result. -/
  | answer (result : StepResult)
  /-- With a failure. -/
  | fail (error : ToolError)

/-- A call of a scripted tool. -/
structure ToolCall where
  tool : String
  input : Artifact
  arguments : BoundArguments
deriving DecidableEq

/-- The arguments as a text, each one with its name and ended by a semicolon. -/
def BoundArguments.text (args : BoundArguments) : String :=
  String.join (args.values.map fun entry => entry.1 ++ "=" ++ entry.2.display ++ ";")

namespace ToolScript

/-- The result with an artifact that tells the tool and the language of its input. -/
def emitted (tool language : String) (input : Artifact) : StepResult :=
  let content := Text.encode (tool ++ "<" ++ input.language ++ ">")
  .forward (.binary language content)
    [.binary "Object" (some language) content,
     .text "Disassembly" (some language) "; disassembly"]

/-- The answer to a call. -/
def answerTo (script : ToolScript) (call : ToolCall) : Except ToolError StepResult :=
  match script with
  | emit language => .ok (emitted call.tool language call.input)
  | follow =>
    (call.arguments.string outputLanguageName).map fun language =>
      emitted call.tool language call.input
  | echo language =>
    .ok (.forward ⟨language, call.input.payload⟩ [.text "Args" none call.arguments.text])
  | finish text => .ok (.terminal [.text "Output" none text])
  | require type name language =>
    (call.arguments.ofType type name).map fun value =>
      .forward (.text language value.display) []
  | answer result => .ok result
  | fail error => .error error

end ToolScript

/-- A tool that answers by a script and notes its calls. -/
def Tool.scripted {m : Type → Type} [Monad m] (descriptor : ToolDescriptor)
    (script : ToolScript) : Tool (StateT (List ToolCall) m) where
  descriptor := descriptor
  compile input args := do
    let call : ToolCall := ⟨descriptor.name, input, args⟩
    modify fun calls => calls ++ [call]
    return script.answerTo call

end ShaderChain
