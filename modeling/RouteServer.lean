import RouteServer.Binary64.Basic
import RouteServer.Binary64.Decimal
import RouteServer.Build.Arguments
import RouteServer.Build.Builder
import RouteServer.Build.Compatibility
import RouteServer.Build.Failure
import RouteServer.Build.Helper
import RouteServer.Build.Rendering
import RouteServer.Build.Target
import RouteServer.Cache.Key
import RouteServer.Cache.Record
import RouteServer.Cache.StalePolicy
import RouteServer.Cache.Store
import RouteServer.CommandLine.Command
import RouteServer.CommandLine.Ending
import RouteServer.CommandLine.Run
import RouteServer.CommandLine.Usage
import RouteServer.Dictionary
import RouteServer.Enrich.Limits
import RouteServer.Enrich.Pipeline
import RouteServer.Enrich.Query
import RouteServer.Enrich.Sets
import RouteServer.Enrich.Stage
import RouteServer.Files.Path
import RouteServer.Files.Tree
import RouteServer.Json.Basic
import RouteServer.Json.Printer
import RouteServer.Json.Reader
import RouteServer.Json.Record
import RouteServer.Json.Skim
import RouteServer.Json.Token
import RouteServer.Lookup.Codec
import RouteServer.Lookup.Directory
import RouteServer.Lookup.Failure
import RouteServer.Lookup.Registry
import RouteServer.Main
import RouteServer.Net.Address
import RouteServer.Net.Asn
import RouteServer.Net.Network
import RouteServer.Number
import RouteServer.Policy.AsSet
import RouteServer.Policy.Prefix
import RouteServer.Policy.Choice
import RouteServer.Policy.Client
import RouteServer.Policy.Community
import RouteServer.Policy.Configuration
import RouteServer.Policy.Decode
import RouteServer.Policy.General
import RouteServer.Policy.GeneralDocument
import RouteServer.Policy.Source
import RouteServer.Power
import RouteServer.Schema.Basic
import RouteServer.Schema.Violation
import RouteServer.Schema.Walk
import RouteServer.Settings.Basic
import RouteServer.Settings.File
import RouteServer.Shipped.Basic
import RouteServer.Shipped.Bird
import RouteServer.Shipped.Context
import RouteServer.Shipped.OpenBgpd
import RouteServer.Template.Builtin
import RouteServer.Template.Eval
import RouteServer.Template.Expr
import RouteServer.Template.Fault
import RouteServer.Template.Machine
import RouteServer.Template.Parser
import RouteServer.Template.Token
import RouteServer.Template.Value
import RouteServer.Text.Blank
import RouteServer.Text.Message
import RouteServer.Text.Numeral
import RouteServer.Text.Split
import RouteServer.Text.Table
import RouteServer.Time.Date
import RouteServer.Time.Instant
import RouteServer.Time.Span
import RouteServer.Toml.Basic
import RouteServer.Toml.Document
import RouteServer.Toml.Reader
import RouteServer.Toml.Scalar
import RouteServer.Yaml.Cursor
import RouteServer.Yaml.Describe
import RouteServer.Yaml.Json
import RouteServer.Yaml.Node
import RouteServer.Yaml.Printer
import RouteServer.Yaml.Reader
import RouteServer.Yaml.Scalar.Block
import RouteServer.Yaml.Scalar.Plain
import RouteServer.Yaml.Scalar.Quoted
import RouteServer.Yaml.Scalar.Resolve
import RouteServer.Yaml.Scalar.Style
import RouteServer.Yaml.Token
import RouteServer.Yaml.Value
import RouteServer.Proofs.Build.Enriched
import RouteServer.Proofs.Build.Heeded
import RouteServer.Proofs.Build.Isolation
import RouteServer.Proofs.Build.ReadBack
import RouteServer.Proofs.Build.Session
import RouteServer.Proofs.Policy.Effective
import RouteServer.Proofs.Policy.Reported
import RouteServer.Proofs.Schema.Conforms
import RouteServer.Proofs.Schema.Located
import RouteServer.Proofs.Policy.Agreement
import RouteServer.Proofs.Policy.Encodings
import RouteServer.Proofs.Policy.Numbers
import RouteServer.Proofs.Policy.Prefixes
import RouteServer.Proofs.Policy.Clashes
import RouteServer.Proofs.Policy.Reordered
import RouteServer.Proofs.Policy.Registered
import RouteServer.Proofs.Policy.Rewalked
import RouteServer.Proofs.Enrich.Workers
import RouteServer.Proofs.Build.Warm
import RouteServer.Proofs.Cache.Records
import RouteServer.Proofs.CommandLine.Whole
import RouteServer.Proofs.Cache.Expiry
import RouteServer.Proofs.Cache.Failed
import RouteServer.Proofs.Build.Names
import RouteServer.Proofs.Build.Discarded
import RouteServer.Proofs.Lookup.Registry
import RouteServer.Proofs.Enrich.Repeated
