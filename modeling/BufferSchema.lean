import BufferSchema.Command.Arguments
import BufferSchema.Command.Basic
import BufferSchema.Command.Failure
import BufferSchema.Command.Plan
import BufferSchema.Command.Run
import BufferSchema.Decoding.Error
import BufferSchema.Decoding.Record
import BufferSchema.Decoding.Source
import BufferSchema.Dependencies
import BufferSchema.Document.Basic
import BufferSchema.Document.Decode
import BufferSchema.Document.Encode
import BufferSchema.Files.Error
import BufferSchema.Files.Tree
import BufferSchema.Header.Basic
import BufferSchema.Header.Enum
import BufferSchema.Header.Guard
import BufferSchema.Header.Options
import BufferSchema.Header.Phrase
import BufferSchema.Header.Root
import BufferSchema.Header.Scope
import BufferSchema.Header.Spelling
import BufferSchema.Header.Struct
import BufferSchema.Header.Table
import BufferSchema.Json.Basic
import BufferSchema.Json.Number
import BufferSchema.Json.Reader
import BufferSchema.Json.Source
import BufferSchema.Json.Text
import BufferSchema.Main
import BufferSchema.Path
import BufferSchema.Report
import BufferSchema.Schema.Basic
import BufferSchema.Schema.Declarations
import BufferSchema.Schema.Edit
import BufferSchema.Schema.Fault
import BufferSchema.Schema.Load
import BufferSchema.Schema.Namespace
import BufferSchema.Schema.Resolve
import BufferSchema.Text.Ascending
import BufferSchema.Text.Lines
import BufferSchema.Text.Numeral
import BufferSchema.Text.Quoted
import BufferSchema.Text.Uppercase
import BufferSchema.Yaml.Cursor
import BufferSchema.Yaml.Defect
import BufferSchema.Yaml.Layout
import BufferSchema.Yaml.Node
import BufferSchema.Yaml.Scalar.Block
import BufferSchema.Yaml.Scalar.Buffer
import BufferSchema.Yaml.Scalar.Gap
import BufferSchema.Yaml.Scalar.Plain
import BufferSchema.Yaml.Scalar.Quoted
import BufferSchema.Yaml.Source
import BufferSchema.Yaml.Token
import BufferSchema.Proofs.Attempt
import BufferSchema.Proofs.Schema.Declarations
import BufferSchema.Proofs.Schema.References
import BufferSchema.Proofs.Schema.Acceptance
import BufferSchema.Proofs.Schema.Soundness
import BufferSchema.Proofs.Schema.Names
import BufferSchema.Proofs.Schema.Duplicates
import BufferSchema.Proofs.Header.Emission
import BufferSchema.Proofs.Header.Safety
import BufferSchema.Proofs.Header.Congruence
import BufferSchema.Proofs.Header.Deprecation
import BufferSchema.Proofs.Header.Table
import BufferSchema.Proofs.Header.Agreement
import BufferSchema.Proofs.Header.Forward
import BufferSchema.Proofs.Header.ForwardPlan
import BufferSchema.Proofs.Header.Collisions
import BufferSchema.Proofs.Header.Dispatch
import BufferSchema.Proofs.Header.Layout
import BufferSchema.Proofs.Header.Parts
import BufferSchema.Proofs.Header.Marks
import BufferSchema.Proofs.Header.NameTable
import BufferSchema.Proofs.Header.Additions
import BufferSchema.Proofs.Report
import BufferSchema.Proofs.Files.Tree
import BufferSchema.Proofs.Command.Loading
import BufferSchema.Proofs.Command.Writing
import BufferSchema.Proofs.Schema.Idempotence
import BufferSchema.Proofs.Header.NameSlots
import BufferSchema.Proofs.Header.Documentation
import BufferSchema.Proofs.Decoding.Record
import BufferSchema.Proofs.Document.Spelling
import BufferSchema.Proofs.Header.CreateOrder
import BufferSchema.Proofs.Header.Conjunction
import BufferSchema.Proofs.Header.Verifier
import BufferSchema.Proofs.Text.Numeral
import BufferSchema.Proofs.Text.Ascending
import BufferSchema.Proofs.Header.Routing
import BufferSchema.Proofs.Header.TruthDefaults
import BufferSchema.Proofs.Header.EnumDefaults
import BufferSchema.Proofs.Header.ElementChecks
import BufferSchema.Proofs.Header.RootSpelling
import BufferSchema.Proofs.Header.Members
import BufferSchema.Proofs.Header.Storage
import BufferSchema.Proofs.Header.Requirements
import BufferSchema.Proofs.Header.Erasure
import BufferSchema.Proofs.Header.StoredTypes
import BufferSchema.Proofs.Header.KeySpelling
import BufferSchema.Proofs.Header.Guard
import BufferSchema.Proofs.Dependencies
import BufferSchema.Proofs.Command.Targets
