import StructureLint.Catalog
import StructureLint.Catalog.Json
import StructureLint.Catalog.Toml
import StructureLint.CommandLine.Arguments
import StructureLint.CommandLine.ConfigLookup
import StructureLint.CommandLine.Linting
import StructureLint.CommandLine.Outcome
import StructureLint.CommandLine.Presentation
import StructureLint.CommandLine.RuleListing
import StructureLint.CommandLine.Run
import StructureLint.CommandLine.StarterConfig
import StructureLint.Config
import StructureLint.Config.File
import StructureLint.Config.Toml
import StructureLint.Decimal.Layout
import StructureLint.Decimal.Shortest
import StructureLint.Document.Basic
import StructureLint.Document.Path
import StructureLint.Document.Traversal
import StructureLint.ElementSpec
import StructureLint.ElementSpec.Json
import StructureLint.ElementTree.Basic
import StructureLint.ElementTree.Nested
import StructureLint.Files.Basic
import StructureLint.Files.Path
import StructureLint.Finding
import StructureLint.Json.Basic
import StructureLint.Json.Number
import StructureLint.Json.Reading
import StructureLint.KeyMap
import StructureLint.Linter.Basic
import StructureLint.Linter.Inspect
import StructureLint.Linter.Log
import StructureLint.Linter.Pool
import StructureLint.Log
import StructureLint.Main
import StructureLint.Messages
import StructureLint.Proofs.Catalog.Decoding
import StructureLint.Proofs.Catalog.MessageSets
import StructureLint.Proofs.Catalog.Resolution
import StructureLint.Proofs.Catalog.RoundTrip
import StructureLint.Proofs.CommandLine.CompactLines
import StructureLint.Proofs.CommandLine.FilesKept
import StructureLint.Proofs.CommandLine.Language
import StructureLint.Proofs.CommandLine.Priority
import StructureLint.Proofs.CommandLine.RuleFilter
import StructureLint.Proofs.CommandLine.Status
import StructureLint.Proofs.Config.Decoding
import StructureLint.Proofs.Document.Paths
import StructureLint.Proofs.Document.Preorder
import StructureLint.Proofs.Document.Trails
import StructureLint.Proofs.Document.TreeLinks
import StructureLint.Proofs.ElementSpec.Kept
import StructureLint.Proofs.ElementTree.Description
import StructureLint.Proofs.ElementTree.DocumentOrder
import StructureLint.Proofs.ElementTree.Edits
import StructureLint.Proofs.ElementTree.ForeignIds
import StructureLint.Proofs.ElementTree.Layout
import StructureLint.Proofs.ElementTree.LinkWalk
import StructureLint.Proofs.ElementTree.Links
import StructureLint.Proofs.ElementTree.Paths
import StructureLint.Proofs.ElementTree.Renumbering
import StructureLint.Proofs.ElementTree.TreeLinks
import StructureLint.Proofs.Files.Beside
import StructureLint.Proofs.Files.Growth
import StructureLint.Proofs.Json.Layout
import StructureLint.Proofs.Json.Strings
import StructureLint.Proofs.Json.Written
import StructureLint.Proofs.Linter.Accounting
import StructureLint.Proofs.Linter.Composition
import StructureLint.Proofs.Linter.History
import StructureLint.Proofs.Linter.LetterCase
import StructureLint.Proofs.Linter.Localization
import StructureLint.Proofs.Linter.Registry
import StructureLint.Proofs.Linter.Reports
import StructureLint.Proofs.Linter.Workers
import StructureLint.Proofs.Report.Json
import StructureLint.Proofs.Rule.HeadinglessSections
import StructureLint.Proofs.Selector.Complete
import StructureLint.Proofs.Selector.Composition
import StructureLint.Proofs.Selector.ErrorKinds
import StructureLint.Proofs.Selector.Extent
import StructureLint.Proofs.Selector.Faults
import StructureLint.Proofs.Selector.LetterCase
import StructureLint.Proofs.Selector.Lookahead
import StructureLint.Proofs.Selector.Matching
import StructureLint.Proofs.Selector.Parse
import StructureLint.Proofs.Selector.Sound
import StructureLint.Proofs.Selector.Spacing
import StructureLint.Proofs.Text.ByteOrder
import StructureLint.Proofs.Toml.DistinctKeys
import StructureLint.ReadError
import StructureLint.Report
import StructureLint.Rule.Basic
import StructureLint.Rule.HeadinglessSections
import StructureLint.Rule.Selecting
import StructureLint.RunContext
import StructureLint.Selector.Basic
import StructureLint.Selector.Error
import StructureLint.Selector.Grammar
import StructureLint.Selector.Reader
import StructureLint.Text.Alphanumeric
import StructureLint.Text.Blank
import StructureLint.Text.Quoted
import StructureLint.Text.Wrapped
import StructureLint.Toml.DateTime
import StructureLint.Toml.Number
import StructureLint.Toml.Reader
import StructureLint.Toml.Section
import StructureLint.Toml.Text
import StructureLint.Toml.Value
