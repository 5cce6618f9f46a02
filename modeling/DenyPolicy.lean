import DenyPolicy.Decimal.Binary64
import DenyPolicy.Decimal.Shortest
import DenyPolicy.Json.Basic
import DenyPolicy.Json.Print
import DenyPolicy.Json.Read
import DenyPolicy.Json.Decode
import DenyPolicy.Hash.Sha256
import DenyPolicy.Text.Blank
import DenyPolicy.Text.Quoted
import DenyPolicy.Text.Grammar
import DenyPolicy.Text.Similarity
import DenyPolicy.Time.Instant
import DenyPolicy.Time.Rfc3339
import DenyPolicy.Error
import DenyPolicy.Scope
import DenyPolicy.Level
import DenyPolicy.Params
import DenyPolicy.Overrides
import DenyPolicy.Emergency
import DenyPolicy.Exception
import DenyPolicy.Rule
import DenyPolicy.Control.Spec
import DenyPolicy.Control.Frameworks
import DenyPolicy.Control.Shared
import DenyPolicy.Manifest.Basic
import DenyPolicy.Manifest.Json
import DenyPolicy.Manifest.Assemble
import DenyPolicy.Input
import DenyPolicy.Compilation
import DenyPolicy.Plan
import DenyPolicy.Audit.Event
import DenyPolicy.Audit.Chain
import DenyPolicy.Schema.Basic
import DenyPolicy.Yaml.Basic
import DenyPolicy.Yaml.Scalar
import DenyPolicy.Yaml.Mark
import DenyPolicy.Yaml.Token
import DenyPolicy.Yaml.Scanner.Basic
import DenyPolicy.Yaml.Scanner.Scalar
import DenyPolicy.Yaml.Scanner.Property
import DenyPolicy.Yaml.Scanner.Fetch
import DenyPolicy.Yaml.Event
import DenyPolicy.Yaml.Parser
import DenyPolicy.Yaml.Compose
import DenyPolicy.Yaml.Read
import DenyPolicy.Schema.Value
import DenyPolicy.Schema.Text
import DenyPolicy.Manifest.Read
import DenyPolicy.Toml.Step
import DenyPolicy.Toml.Table
import DenyPolicy.Toml.Value
import DenyPolicy.Toml.Read
import DenyPolicy.Load
import DenyPolicy.Command.Host
import DenyPolicy.Command.Workspace
import DenyPolicy.Command.Spec
import DenyPolicy.Command.Line
import DenyPolicy.Command.Settings
import DenyPolicy.Command.Report
import DenyPolicy.Command.Run
import DenyPolicy.Main
import DenyPolicy.Proofs.Text
import DenyPolicy.Proofs.Stages
import DenyPolicy.Proofs.Assembly
import DenyPolicy.Proofs.Rules
import DenyPolicy.Proofs.Exceptions
import DenyPolicy.Proofs.Precedence
import DenyPolicy.Proofs.Override
import DenyPolicy.Proofs.DryRun
import DenyPolicy.Proofs.Monotone
import DenyPolicy.Proofs.Expiry
import DenyPolicy.Proofs.Resolution
import DenyPolicy.Proofs.Merging
import DenyPolicy.Proofs.JsonLayout
import DenyPolicy.Proofs.JsonReading
import DenyPolicy.Proofs.ManifestRoundTrip
import DenyPolicy.Proofs.JsonValues
import DenyPolicy.Proofs.Timestamps
import DenyPolicy.Proofs.AuditEvents
import DenyPolicy.Proofs.AuditChain
import DenyPolicy.Proofs.WorkspaceFiles
import DenyPolicy.Proofs.PlacePaths
import DenyPolicy.Proofs.LogAppend
import DenyPolicy.Proofs.CompileCommand
import DenyPolicy.Proofs.CompileRun
import DenyPolicy.Proofs.Utf8Order
import DenyPolicy.Proofs.PlanDiff
import DenyPolicy.Proofs.ChainVerify
import DenyPolicy.Proofs.ScopeGrammar
import DenyPolicy.Proofs.Conditions
import DenyPolicy.Proofs.Patterns
import DenyPolicy.Proofs.KeyedView
import DenyPolicy.Proofs.JsonGrammar
import DenyPolicy.Proofs.CheckFuel
import DenyPolicy.Proofs.CheckOrder
import DenyPolicy.Proofs.TypedReading
import DenyPolicy.Proofs.JsonLoading
