import ShaderChain.Adapter.Builtin
import ShaderChain.Adapter.Dxc
import ShaderChain.Adapter.Fxc
import ShaderChain.Adapter.Glslang
import ShaderChain.Adapter.Hlslcc
import ShaderChain.Adapter.Mali
import ShaderChain.Adapter.Parameters
import ShaderChain.Adapter.SpirvCross
import ShaderChain.Artifact
import ShaderChain.CommandLine.Ending
import ShaderChain.CommandLine.Failure
import ShaderChain.CommandLine.Grammar
import ShaderChain.CommandLine.Handler
import ShaderChain.CommandLine.OutputFiles
import ShaderChain.CommandLine.Report
import ShaderChain.CommandLine.Request
import ShaderChain.CommandLine.StepText
import ShaderChain.Config.Basic
import ShaderChain.Config.Discovery
import ShaderChain.Config.Error
import ShaderChain.Definition
import ShaderChain.Document.Basic
import ShaderChain.Document.Record
import ShaderChain.Host
import ShaderChain.Json.Number
import ShaderChain.Json.Printer
import ShaderChain.Json.Reader
import ShaderChain.Language
import ShaderChain.Library
import ShaderChain.Machine.Files
import ShaderChain.Machine.IoError
import ShaderChain.Machine.Launch
import ShaderChain.Machine.Path
import ShaderChain.Machine.Program
import ShaderChain.Machine.Standard
import ShaderChain.Machine.State
import ShaderChain.Main
import ShaderChain.Number.Binary64
import ShaderChain.Number.Duration
import ShaderChain.Number.Integer
import ShaderChain.Number.Shortest
import ShaderChain.Parameter.Basic
import ShaderChain.Parameter.Binding
import ShaderChain.Pipeline.Error
import ShaderChain.Pipeline.Plan
import ShaderChain.Pipeline.Run
import ShaderChain.Pipeline.Step
import ShaderChain.Process
import ShaderChain.Proofs.Outcome
import ShaderChain.Proofs.Parameter.Binding
import ShaderChain.Proofs.Registry.Reachable
import ShaderChain.Registry
import ShaderChain.Shell.Arithmetic
import ShaderChain.Shell.Command
import ShaderChain.Shell.Condition
import ShaderChain.Shell.Expansion
import ShaderChain.Shell.Format
import ShaderChain.Shell.Pattern
import ShaderChain.Shell.Reader
import ShaderChain.Shell.Run
import ShaderChain.Shell.Session
import ShaderChain.Shell.Utility
import ShaderChain.StepResult
import ShaderChain.Table
import ShaderChain.Text.Base64
import ShaderChain.Text.Blank
import ShaderChain.Text.Hex
import ShaderChain.Text.Lines
import ShaderChain.Text.Quoted
import ShaderChain.Text.Split
import ShaderChain.Text.Utf8
import ShaderChain.Text.Visibility
import ShaderChain.Toml.Lexical
import ShaderChain.Toml.Moment
import ShaderChain.Toml.Number
import ShaderChain.Toml.Quoting
import ShaderChain.Toml.Reader
import ShaderChain.Toml.Writer
import ShaderChain.Tool.Basic
import ShaderChain.Tool.Error
import ShaderChain.Tool.Scripted
import ShaderChain.Toolchain
import ShaderChain.Workspace
import ShaderChain.Proofs.Pipeline.Planning
import ShaderChain.Proofs.Pipeline.Trace
import ShaderChain.Proofs.Pipeline.Contract
import ShaderChain.Proofs.Adapter.Dependable
import ShaderChain.Proofs.Adapter.Complete
import ShaderChain.Proofs.Pipeline.Completion
import ShaderChain.Proofs.Pipeline.Stepwise
import ShaderChain.Proofs.Pipeline.Splitting
import ShaderChain.Proofs.Definition
import ShaderChain.Proofs.Toolchain
import ShaderChain.Proofs.Library.Directory
import ShaderChain.Proofs.CommandLine.OutputFiles
import ShaderChain.Proofs.Registry.Registration
import ShaderChain.Proofs.CommandLine.Resolution
import ShaderChain.Proofs.Json.Scalar
import ShaderChain.Proofs.Text.Base64
import ShaderChain.Proofs.Json.RoundTrip
import ShaderChain.Proofs.Tool.Serialization
import ShaderChain.Proofs.Toml.Value
import ShaderChain.Proofs.Config.RoundTrip
import ShaderChain.Proofs.Config.Saving
import ShaderChain.Proofs.Parameter.Exactness
import ShaderChain.Proofs.Pipeline.Violation
import ShaderChain.Proofs.Version
import ShaderChain.Proofs.Host.Event
import ShaderChain.Proofs.Adapter.Attempt
import ShaderChain.Proofs.Adapter.Account
import ShaderChain.Proofs.Text.Blank
import ShaderChain.Proofs.Text.Case
import ShaderChain.Proofs.Text.Lossy
import ShaderChain.Proofs.Text.Lines
import ShaderChain.Proofs.Process
import ShaderChain.Proofs.Number.Integer
import ShaderChain.Proofs.Parameter.Grammar
import ShaderChain.Proofs.Parameter.Rebinding
import ShaderChain.Proofs.Registry.Prediction
import ShaderChain.Proofs.Host.Environment
import ShaderChain.Proofs.Adapter.SyntaxTree
import ShaderChain.Proofs.Adapter.Form
import ShaderChain.Proofs.Adapter.CommandLine
import ShaderChain.Proofs.CommandLine.Collision
import ShaderChain.Proofs.CommandLine.StepText
import ShaderChain.Proofs.Config.Layering
import ShaderChain.Proofs.CommandLine.Slug
import ShaderChain.Proofs.CommandLine.Report
import ShaderChain.Proofs.Host.Confinement
import ShaderChain.Proofs.Machine.Workspace
import ShaderChain.Proofs.Adapter.Confinement
import ShaderChain.Proofs.CommandLine.Run
