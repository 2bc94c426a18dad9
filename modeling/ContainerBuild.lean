import ContainerBuild.Build.Builder
import ContainerBuild.Build.Images
import ContainerBuild.Build.Plan
import ContainerBuild.Build.Run
import ContainerBuild.BuildFile.Basic
import ContainerBuild.BuildFile.Loading
import ContainerBuild.BuildFile.Reader
import ContainerBuild.BuildFile.Source
import ContainerBuild.Cancellation
import ContainerBuild.CommandLine.Help
import ContainerBuild.CommandLine.Invocation
import ContainerBuild.CommandLine.Matching
import ContainerBuild.CommandLine.Rule
import ContainerBuild.Config.Basic
import ContainerBuild.Config.Location
import ContainerBuild.Config.Secrets
import ContainerBuild.Config.Setting
import ContainerBuild.Config.Template
import ContainerBuild.Config.Toml
import ContainerBuild.Definition.Basic
import ContainerBuild.Definition.Json
import ContainerBuild.Definition.Resolution
import ContainerBuild.Definition.Trace
import ContainerBuild.Definition.Walk
import ContainerBuild.Docker.Capture
import ContainerBuild.Docker.Client
import ContainerBuild.Docker.Listing
import ContainerBuild.Docker.Process
import ContainerBuild.Docker.SshAgent
import ContainerBuild.Docker.Transcript
import ContainerBuild.Dockerfile.Basic
import ContainerBuild.Dockerfile.Generation
import ContainerBuild.Dockerfile.VarValues
import ContainerBuild.Environment
import ContainerBuild.Error
import ContainerBuild.Files.Path
import ContainerBuild.Files.Tree
import ContainerBuild.Json.Basic
import ContainerBuild.Json.Lexer
import ContainerBuild.Json.Meaning
import ContainerBuild.Json.Parser
import ContainerBuild.Json.Printer
import ContainerBuild.Main
import ContainerBuild.Number.Binary64
import ContainerBuild.Number.Power
import ContainerBuild.Number.Shortest
import ContainerBuild.Program.Run
import ContainerBuild.Program.Session
import ContainerBuild.Program.Status
import ContainerBuild.Proofs.Build.Agreement
import ContainerBuild.Proofs.Build.Cancellation
import ContainerBuild.Proofs.Build.Dialogue
import ContainerBuild.Proofs.Build.Externals
import ContainerBuild.Proofs.Build.Images
import ContainerBuild.Proofs.Build.Plan
import ContainerBuild.Proofs.Build.Roots
import ContainerBuild.Proofs.Build.Script
import ContainerBuild.Proofs.Build.Secrets
import ContainerBuild.Proofs.Build.Several
import ContainerBuild.Proofs.Build.Values
import ContainerBuild.Proofs.BuildFile.Agreement
import ContainerBuild.Proofs.BuildFile.Brackets
import ContainerBuild.Proofs.BuildFile.Evaluation
import ContainerBuild.Proofs.BuildFile.Items
import ContainerBuild.Proofs.BuildFile.Links
import ContainerBuild.Proofs.BuildFile.RoundTrip
import ContainerBuild.Proofs.BuildFile.Writing
import ContainerBuild.Proofs.Config.Toml
import ContainerBuild.Proofs.Definition.Graph
import ContainerBuild.Proofs.Definition.Json
import ContainerBuild.Proofs.Definition.Renumbering
import ContainerBuild.Proofs.Definition.Walk
import ContainerBuild.Proofs.Docker.Arguments
import ContainerBuild.Proofs.Docker.Capture
import ContainerBuild.Proofs.Docker.Concurrency
import ContainerBuild.Proofs.Docker.Cutting
import ContainerBuild.Proofs.Docker.Listing
import ContainerBuild.Proofs.Docker.Transcript
import ContainerBuild.Proofs.Dockerfile.Delimiter
import ContainerBuild.Proofs.Dockerfile.HereDocument
import ContainerBuild.Proofs.Dockerfile.Labels
import ContainerBuild.Proofs.Dockerfile.Lines
import ContainerBuild.Proofs.Dockerfile.Quoting
import ContainerBuild.Proofs.Dockerfile.Rendering
import ContainerBuild.Proofs.Dockerfile.Requirements
import ContainerBuild.Proofs.Dockerfile.Stages
import ContainerBuild.Proofs.Dockerfile.Tokens
import ContainerBuild.Proofs.Dockerfile.Values
import ContainerBuild.Proofs.Files.Tree
import ContainerBuild.Proofs.Json.Brackets
import ContainerBuild.Proofs.Json.Exactness
import ContainerBuild.Proofs.Json.Grammar
import ContainerBuild.Proofs.Json.Printing
import ContainerBuild.Proofs.Json.Reading
import ContainerBuild.Proofs.Json.WellFormed
import ContainerBuild.Proofs.Order
import ContainerBuild.Proofs.Outcome
import ContainerBuild.Proofs.Program.Runs
import ContainerBuild.Proofs.Program.Secrets
import ContainerBuild.Proofs.Program.Settings
import ContainerBuild.Proofs.Program.Storage
import ContainerBuild.Proofs.Resolution.Causes
import ContainerBuild.Proofs.Resolution.Cycles
import ContainerBuild.Proofs.Resolution.Faults
import ContainerBuild.Proofs.Resolution.Listed
import ContainerBuild.Proofs.Resolution.Permutation
import ContainerBuild.Proofs.Resolution.Represented
import ContainerBuild.Proofs.Resolution.Search
import ContainerBuild.Proofs.Resolution.Slots
import ContainerBuild.Proofs.Text.Decimal
import ContainerBuild.Proofs.Text.Framing
import ContainerBuild.Proofs.Text.Lines
import ContainerBuild.Proofs.Text.Trimming
import ContainerBuild.Proofs.Text.Utf8
import ContainerBuild.Proofs.Tokens
import ContainerBuild.Proofs.Toml.Statements
import ContainerBuild.SecretSource
import ContainerBuild.Text.Alphabetic
import ContainerBuild.Text.Alphanumeric
import ContainerBuild.Text.Blank
import ContainerBuild.Text.CodePoints
import ContainerBuild.Text.Digit
import ContainerBuild.Text.Lines
import ContainerBuild.Text.Quoted
import ContainerBuild.Text.Utf8
import ContainerBuild.Text.Word
import ContainerBuild.Toml.Basic
import ContainerBuild.Toml.Grammar
import ContainerBuild.Toml.Printer
import ContainerBuild.Toml.Scalar
import ContainerBuild.Toml.Strings
import ContainerBuild.Toml.Tree
