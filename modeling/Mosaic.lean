import Mosaic.Adapter.Basic
import Mosaic.Adapter.Builtin
import Mosaic.Adapter.Registry
import Mosaic.Document.Embedded
import Mosaic.Document.Snapshot
import Mosaic.Document.Snippet
import Mosaic.Error
import Mosaic.Json.Basic
import Mosaic.Json.Format
import Mosaic.Markup.Cursor
import Mosaic.Markup.Token
import Mosaic.Metadata.Adapter
import Mosaic.Metadata.Outline
import Mosaic.Number.Binary
import Mosaic.Number.Double
import Mosaic.Number.Single
import Mosaic.Protocol.CodeAction
import Mosaic.Protocol.Color
import Mosaic.Protocol.Completion
import Mosaic.Protocol.Diagnostic
import Mosaic.Protocol.Edit
import Mosaic.Protocol.Place
import Mosaic.Protocol.Symbol
import Mosaic.Protocol.Uri
import Mosaic.Region.Basic
import Mosaic.Region.Language
import Mosaic.Region.Scan
import Mosaic.Revalidation.Run
import Mosaic.Revalidation.Scheduler
import Mosaic.Routing.Action
import Mosaic.Routing.AtPosition
import Mosaic.Routing.Basic
import Mosaic.Routing.WholeFile
import Mosaic.SemanticToken
import Mosaic.Server.Basic
import Mosaic.Server.Capabilities
import Mosaic.Server.Lifecycle
import Mosaic.Server.Message
import Mosaic.Server.News
import Mosaic.Server.Query
import Mosaic.Settings.Basic
import Mosaic.Settings.Discovery
import Mosaic.Settings.Reading
import Mosaic.Store
import Mosaic.Style.Adapter
import Mosaic.Style.Color
import Mosaic.Style.Comment
import Mosaic.Style.Sheet
import Mosaic.Text.Blank
import Mosaic.Text.Change
import Mosaic.Text.Measure
import Mosaic.Text.Position
import Mosaic.Text.Span
import Mosaic.Toml.Document
import Mosaic.Toml.Scalar
import Mosaic.Toml.Value
import Mosaic.Unicode.Printable
import Mosaic.Unicode.Ranges
import Mosaic.Unicode.Word
import Mosaic.Yaml.Cursor
import Mosaic.Yaml.Document
import Mosaic.Yaml.Event
import Mosaic.Yaml.Fault
import Mosaic.Yaml.Load
import Mosaic.Yaml.Scalar
import Mosaic.Yaml.Tag
import Mosaic.Yaml.Token
import Mosaic.Yaml.Value
import Mosaic.Proofs.Boundary
import Mosaic.Proofs.LinePosition
import Mosaic.Proofs.CursorMove
import Mosaic.Proofs.TokenStream
import Mosaic.Proofs.RegionPlace
import Mosaic.Proofs.RegionSpacing
import Mosaic.Proofs.Embedding
import Mosaic.Proofs.FanIn
import Mosaic.Proofs.Formatting
import Mosaic.Proofs.OpenFiles
import Mosaic.Proofs.PendingRuns
import Mosaic.Proofs.ValidationRun
import Mosaic.Proofs.Interleaving
import Mosaic.Proofs.Settling
import Mosaic.Proofs.PassingTime
import Mosaic.Proofs.SendableDiagnostics
import Mosaic.Proofs.UpToDate
import Mosaic.Proofs.EditSession
import Mosaic.Proofs.CursorInBlock
import Mosaic.Proofs.ByteText
import Mosaic.Proofs.ByteReader
import Mosaic.Proofs.CheckedScan
import Mosaic.Proofs.TokenLayout
import Mosaic.Proofs.AwaitedRun
import Mosaic.Proofs.StoreOperations
import Mosaic.Proofs.RequestFates
import Mosaic.Proofs.SchedulerRuns
import Mosaic.Proofs.StoreLedgers
import Mosaic.Proofs.ActionRoundTrip
import Mosaic.Proofs.ComponentFile
import Mosaic.Proofs.FanOut
import Mosaic.Proofs.TemplateContent
import Mosaic.Proofs.InlinePlaces
import Mosaic.Proofs.PositionRequests
import Mosaic.Proofs.ActionContext
import Mosaic.Proofs.HostBounds
import Mosaic.Proofs.MergedTokens
import Mosaic.Proofs.TextEdits
import Mosaic.Proofs.FormattedBlocks
import Mosaic.Proofs.NestedOutlines
import Mosaic.Proofs.HighlightedNames
import Mosaic.Proofs.BlockRanges
import Mosaic.Proofs.PositionLookup
import Mosaic.Proofs.LetterCase
import Mosaic.Proofs.LoweredScan
import Mosaic.Proofs.SingleBlocks
import Mosaic.Proofs.CommentSpans
import Mosaic.Proofs.BraceMatching
import Mosaic.Proofs.SheetStretches
import Mosaic.Proofs.RuleForest
import Mosaic.Proofs.StyleColors
import Mosaic.Proofs.RawTags
import Mosaic.Proofs.TagLanguages
import Mosaic.Proofs.SpanTokens
import Mosaic.Proofs.LineEndings
import Mosaic.Proofs.FaithfulMask
import Mosaic.Proofs.MarkedCursor
import Mosaic.Proofs.MarkedTokens
import Mosaic.Proofs.MarkedEvents
import Mosaic.Proofs.MarkedDocument
import Mosaic.Proofs.MetadataErrors
