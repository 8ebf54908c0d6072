import Phrasebook.Argument.Basic
import Phrasebook.Argument.Value
import Phrasebook.Cache.Backend
import Phrasebook.Cache.Concurrent
import Phrasebook.Cache.LockTable
import Phrasebook.Cache.Metrics
import Phrasebook.Cache.Operation
import Phrasebook.Cache.Options
import Phrasebook.Cache.Source
import Phrasebook.Config.Basic
import Phrasebook.Config.Build
import Phrasebook.Config.Document
import Phrasebook.Config.Load
import Phrasebook.Config.Validation
import Phrasebook.Dict
import Phrasebook.Document.Basic
import Phrasebook.Document.Json
import Phrasebook.Document.Record
import Phrasebook.Document.Toml
import Phrasebook.Document.Toml.Scalar
import Phrasebook.Document.Toml.Tables
import Phrasebook.Duration
import Phrasebook.Engine.Basic
import Phrasebook.Engine.Operation
import Phrasebook.Engine.Render
import Phrasebook.Error
import Phrasebook.Files.Path
import Phrasebook.Files.Tree
import Phrasebook.Formatter
import Phrasebook.Interaction
import Phrasebook.KeySet
import Phrasebook.Language.Basic
import Phrasebook.Language.Document
import Phrasebook.Language.Fallback
import Phrasebook.Language.Registry
import Phrasebook.Locale.Table
import Phrasebook.Locale.Tag
import Phrasebook.Logging
import Phrasebook.Number.Float
import Phrasebook.Number.Integer
import Phrasebook.Proofs.Argument.Order
import Phrasebook.Proofs.Cache.Accounting
import Phrasebook.Proofs.Cache.Alone
import Phrasebook.Proofs.Cache.Bracket
import Phrasebook.Proofs.Cache.Callers
import Phrasebook.Proofs.Cache.Consistent
import Phrasebook.Proofs.Cache.Dropping
import Phrasebook.Proofs.Cache.Exclusion
import Phrasebook.Proofs.Cache.Keys
import Phrasebook.Proofs.Cache.Locks
import Phrasebook.Proofs.Cache.Memory
import Phrasebook.Proofs.Cache.Scheduling
import Phrasebook.Proofs.Cache.SingleFlight
import Phrasebook.Proofs.Cache.Standing
import Phrasebook.Proofs.Cache.Traffic
import Phrasebook.Proofs.Config.Acceptance
import Phrasebook.Proofs.Config.Building
import Phrasebook.Proofs.Config.Cycle
import Phrasebook.Proofs.Config.CycleReports
import Phrasebook.Proofs.Config.Lasso
import Phrasebook.Proofs.Config.Loading
import Phrasebook.Proofs.Config.Restoring
import Phrasebook.Proofs.Config.Roots
import Phrasebook.Proofs.Config.Writing
import Phrasebook.Proofs.Document.Leaves
import Phrasebook.Proofs.Document.Records
import Phrasebook.Proofs.Engine.Additions
import Phrasebook.Proofs.Engine.Agreement
import Phrasebook.Proofs.Engine.Bindings
import Phrasebook.Proofs.Engine.Calls
import Phrasebook.Proofs.Engine.Crowd
import Phrasebook.Proofs.Engine.Formatting
import Phrasebook.Proofs.Engine.Lockstep
import Phrasebook.Proofs.Engine.Lookup
import Phrasebook.Proofs.Engine.Outcomes
import Phrasebook.Proofs.Engine.Publication
import Phrasebook.Proofs.Engine.Rebuilding
import Phrasebook.Proofs.Engine.Redirects
import Phrasebook.Proofs.Engine.Reloading
import Phrasebook.Proofs.Engine.Script
import Phrasebook.Proofs.Engine.Serial
import Phrasebook.Proofs.Engine.Serializable
import Phrasebook.Proofs.Engine.Surroundings
import Phrasebook.Proofs.Engine.Walk
import Phrasebook.Proofs.Formatter.History
import Phrasebook.Proofs.History
import Phrasebook.Proofs.Language.History
import Phrasebook.Proofs.Language.Listing
import Phrasebook.Proofs.Language.Registry
import Phrasebook.Proofs.Language.Route
import Phrasebook.Proofs.Locale.Table
import Phrasebook.Proofs.Number.Natural
import Phrasebook.Proofs.Source.Containment
import Phrasebook.Proofs.Source.Directory
import Phrasebook.Proofs.Source.Serving
import Phrasebook.Proofs.Store.Distinct
import Phrasebook.Proofs.Store.History
import Phrasebook.Proofs.Store.Recompiled
import Phrasebook.Proofs.Store.Recorded
import Phrasebook.Proofs.Store.Repeating
import Phrasebook.Proofs.Store.Separate
import Phrasebook.Proofs.Store.Unrelated
import Phrasebook.Proofs.Store.Views
import Phrasebook.Proofs.Template.ColorText
import Phrasebook.Proofs.Template.Filling
import Phrasebook.Proofs.Template.Grammar
import Phrasebook.Proofs.Template.Marks
import Phrasebook.Proofs.Template.Matches
import Phrasebook.Proofs.Template.Respelling
import Phrasebook.Proofs.Template.Segmentation
import Phrasebook.Proofs.Template.Styling
import Phrasebook.Proofs.Text.ByteOrder
import Phrasebook.Proofs.Text.Case
import Phrasebook.Proofs.Text.Drain
import Phrasebook.Proofs.Text.InTurn
import Phrasebook.Proofs.Text.Needles
import Phrasebook.Proofs.Text.Pattern
import Phrasebook.Proofs.Text.Scan
import Phrasebook.Proofs.Text.Slices
import Phrasebook.Proofs.Text.Sweep
import Phrasebook.Proofs.Text.Trimming
import Phrasebook.RichText
import Phrasebook.Source.Any
import Phrasebook.Source.Basic
import Phrasebook.Source.Directory
import Phrasebook.Source.Scripted
import Phrasebook.Store.Basic
import Phrasebook.Store.Entry
import Phrasebook.Style.Color
import Phrasebook.Style.Decoration
import Phrasebook.Template.Code
import Phrasebook.Template.Segment
import Phrasebook.Template.Token
import Phrasebook.Text.Blank
import Phrasebook.Text.Displayable
import Phrasebook.Text.Inspect
import Phrasebook.Text.Occurrence
import Phrasebook.Text.Reader
import Phrasebook.Text.Substitution
