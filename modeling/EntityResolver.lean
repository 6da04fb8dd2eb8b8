import EntityResolver.Binary64
import EntityResolver.Calendar
import EntityResolver.Catalog.Basic
import EntityResolver.Catalog.Id
import EntityResolver.Catalog.Method
import EntityResolver.Catalog.Picker
import EntityResolver.CommandLine.Description
import EntityResolver.CommandLine.Invocation
import EntityResolver.CommandLine.Program
import EntityResolver.Config.Basic
import EntityResolver.Config.File
import EntityResolver.Decimal.Printer
import EntityResolver.Decimal.Reader
import EntityResolver.Decimal.Shortest
import EntityResolver.Error
import EntityResolver.Json.Basic
import EntityResolver.Json.Printer
import EntityResolver.Json.Syntax
import EntityResolver.Lang
import EntityResolver.Main
import EntityResolver.MatchText
import EntityResolver.OrderedMap
import EntityResolver.PackedId
import EntityResolver.Power
import EntityResolver.Proofs.Acyclicity
import EntityResolver.Proofs.Ancestors
import EntityResolver.Proofs.Catalog.Registered
import EntityResolver.Proofs.Catalog.Spoken
import EntityResolver.Proofs.Checked
import EntityResolver.Proofs.Coherence
import EntityResolver.Proofs.Collections
import EntityResolver.Proofs.Conformance
import EntityResolver.Proofs.Database
import EntityResolver.Proofs.Economy
import EntityResolver.Proofs.Evaluation.Basic
import EntityResolver.Proofs.Evaluation.Fetching
import EntityResolver.Proofs.Evaluation.Progress
import EntityResolver.Proofs.Evaluation.Reading
import EntityResolver.Proofs.Evaluation.Refinement
import EntityResolver.Proofs.Evaluation.Results
import EntityResolver.Proofs.Evaluation.Unfolding
import EntityResolver.Proofs.Language
import EntityResolver.Proofs.NestedLists
import EntityResolver.Proofs.Order.Replacement
import EntityResolver.Proofs.Recursion
import EntityResolver.Proofs.Registration
import EntityResolver.Proofs.Run.Accounts
import EntityResolver.Proofs.Run.Adding
import EntityResolver.Proofs.Run.Arena
import EntityResolver.Proofs.Run.Candidates
import EntityResolver.Proofs.Run.Demands
import EntityResolver.Proofs.Run.Fetching
import EntityResolver.Proofs.Run.History
import EntityResolver.Proofs.Run.Invariant
import EntityResolver.Proofs.Run.Knowledge
import EntityResolver.Proofs.Run.Learning
import EntityResolver.Proofs.Run.Members
import EntityResolver.Proofs.Run.Ledger
import EntityResolver.Proofs.Run.Nesting
import EntityResolver.Proofs.Run.Outcome
import EntityResolver.Proofs.Run.Progress
import EntityResolver.Proofs.Run.Reading
import EntityResolver.Proofs.Run.Resolving
import EntityResolver.Proofs.Run.Rounds
import EntityResolver.Proofs.Run.Sound
import EntityResolver.Proofs.Run.Steady
import EntityResolver.Proofs.Run.Termination
import EntityResolver.Proofs.Schema.Build
import EntityResolver.Proofs.Selector.Confined
import EntityResolver.Proofs.Selector.Entries
import EntityResolver.Proofs.Selector.Formed
import EntityResolver.Proofs.Selector.Grammar
import EntityResolver.Proofs.Selector.Height
import EntityResolver.Proofs.Selector.Printed
import EntityResolver.Proofs.Selector.Project
import EntityResolver.Proofs.Selector.Rooted
import EntityResolver.Proofs.Selector.Rows
import EntityResolver.Proofs.Selector.Same
import EntityResolver.Proofs.Selector.Tokens
import EntityResolver.Proofs.SelectorText
import EntityResolver.Proofs.Termination
import EntityResolver.Proofs.Twin.Demands
import EntityResolver.Proofs.Twin.Fetching
import EntityResolver.Proofs.Twin.Kinds
import EntityResolver.Proofs.Twin.Pairing
import EntityResolver.Proofs.Twin.Reading
import EntityResolver.Proofs.Twin.Requests
import EntityResolver.Proofs.Twin.Rounds
import EntityResolver.Proofs.Twin.Steps
import EntityResolver.Proofs.Value.Matched
import EntityResolver.Proofs.Value.Muted
import EntityResolver.Proofs.Value.Shape
import EntityResolver.Remote.Basic
import EntityResolver.Remote.Script
import EntityResolver.Run.Basic
import EntityResolver.Run.Candidacy
import EntityResolver.Run.Fetch
import EntityResolver.Run.Load
import EntityResolver.Run.Prerequisite
import EntityResolver.Run.Round
import EntityResolver.Run.Spawn
import EntityResolver.Schema.Basic
import EntityResolver.Schema.Build
import EntityResolver.Schema.DataType
import EntityResolver.Selector.Basic
import EntityResolver.Selector.Parser
import EntityResolver.Selector.Printer
import EntityResolver.Selector.Token
import EntityResolver.Session
import EntityResolver.Text.Basic
import EntityResolver.Text.Blank
import EntityResolver.Text.Hidden
import EntityResolver.Text.LetterCase
import EntityResolver.Text.Quoted
import EntityResolver.Text.SnakeCase
import EntityResolver.Text.WordCharacter
import EntityResolver.Url.Basic
import EntityResolver.Url.Error
import EntityResolver.Url.Escape
import EntityResolver.Url.Host
import EntityResolver.Url.Parser
import EntityResolver.Url.Path
import EntityResolver.Url.Punycode
import EntityResolver.Usos.Catalog
import EntityResolver.Usos.Pickers
import EntityResolver.Usos.Schema
import EntityResolver.Value.Entity
import EntityResolver.Value.Error
import EntityResolver.Value.Field
import EntityResolver.Value.Scalar
import EntityResolver.Proofs.PackedId
import EntityResolver.Proofs.Schema.Expansion
import EntityResolver.Proofs.Schema.Search
import EntityResolver.Proofs.SchemaDeclarations
import EntityResolver.Proofs.Catalog.Requests
import EntityResolver.Proofs.Coverage
import EntityResolver.Proofs.SelectorTyping
import EntityResolver.Proofs.Selector.Union
import EntityResolver.Proofs.Selector.Overlays
import EntityResolver.Proofs.MatchText
import EntityResolver.Proofs.RequestOrder
import EntityResolver.Proofs.Run.Extending
import EntityResolver.Proofs.Run.Composed
import EntityResolver.Proofs.Run.Failures
import EntityResolver.Proofs.Run.Absence
import EntityResolver.Proofs.Run.Strength
import EntityResolver.Proofs.Run.Reports
import EntityResolver.Proofs.Run.Requests
import EntityResolver.Proofs.Run.Findings
import EntityResolver.Proofs.Existence
import EntityResolver.Proofs.Listing
import EntityResolver.Proofs.IdParameters
import EntityResolver.Proofs.BatchKeys
import EntityResolver.Proofs.Batches
import EntityResolver.Proofs.Run.Reachable
import EntityResolver.Proofs.Run.Serving
import EntityResolver.Proofs.Scheduling
import EntityResolver.Proofs.Supply
import EntityResolver.Proofs.Run.Keeping
import EntityResolver.Proofs.Run.Records
import EntityResolver.Proofs.Run.Lacking
import EntityResolver.Proofs.Statistics
import EntityResolver.Proofs.Text.LowerCase
import EntityResolver.Proofs.ListedBatches
import EntityResolver.Proofs.Outages
import EntityResolver.Proofs.Selector.BasicForm
import EntityResolver.Proofs.BasicText
import EntityResolver.Proofs.MissingKeys
import EntityResolver.Proofs.Run.Mentions
import EntityResolver.Proofs.NullReferences
import EntityResolver.Proofs.Run.Persistence
import EntityResolver.Proofs.Catalog.Readings
import EntityResolver.Proofs.Run.Places
import EntityResolver.Proofs.Selector.Homing
import EntityResolver.Proofs.UnsuppliedFields
import EntityResolver.Proofs.Projection
import EntityResolver.Proofs.Merging
import EntityResolver.Proofs.SchemaHandles
import EntityResolver.Proofs.References
import EntityResolver.Proofs.Markup
import EntityResolver.Proofs.ListPaths
import EntityResolver.Proofs.PreparedReplies
import EntityResolver.Proofs.NearestDouble
import EntityResolver.Proofs.Json.Sorted
import EntityResolver.Proofs.RawDocuments
import EntityResolver.Proofs.EntityDocuments
