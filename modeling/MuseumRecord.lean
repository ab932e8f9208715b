import MuseumRecord.Calendar.Day
import MuseumRecord.Calendar.Layout
import MuseumRecord.Calendar.Moment
import MuseumRecord.Calendar.Timestamp
import MuseumRecord.Calendar.Written
import MuseumRecord.Command.Arguments
import MuseumRecord.Command.Basic
import MuseumRecord.Command.Host
import MuseumRecord.Command.Outcome
import MuseumRecord.Command.Paint
import MuseumRecord.Command.Run
import MuseumRecord.Command.Selection
import MuseumRecord.Diagnostic
import MuseumRecord.Exhibit
import MuseumRecord.Files.Document
import MuseumRecord.Files.Path
import MuseumRecord.Files.Tree
import MuseumRecord.HistoricalDate.Basic
import MuseumRecord.HistoricalDate.Dash
import MuseumRecord.HistoricalDate.Reading
import MuseumRecord.Identifier
import MuseumRecord.Inspection
import MuseumRecord.Main
import MuseumRecord.Markup.Attribute
import MuseumRecord.Markup.Construct
import MuseumRecord.Markup.Document
import MuseumRecord.Markup.Element
import MuseumRecord.Markup.Event
import MuseumRecord.Markup.Message
import MuseumRecord.Markup.Reference
import MuseumRecord.Markup.Sanitized
import MuseumRecord.Markup.Scope
import MuseumRecord.Number.Binary64
import MuseumRecord.Number.Digits
import MuseumRecord.Number.FixedPoint
import MuseumRecord.Number.Literal
import MuseumRecord.Number.Shortest
import MuseumRecord.Proofs.Calendar.Zoned
import MuseumRecord.Proofs.HistoricalDate.Passing
import MuseumRecord.Proofs.Inspection.Ending
import MuseumRecord.Proofs.Inspection.Passing
import MuseumRecord.Proofs.Markup.Expansion
import MuseumRecord.Proofs.Markup.Extent
import MuseumRecord.Proofs.Markup.Listing
import MuseumRecord.Proofs.Markup.Locality
import MuseumRecord.Proofs.Markup.Reading
import MuseumRecord.Proofs.Markup.RoundTrip
import MuseumRecord.Proofs.Markup.Sanitized
import MuseumRecord.Proofs.Markup.Tag
import MuseumRecord.Proofs.Markup.Tree
import MuseumRecord.Proofs.Markup.Writing
import MuseumRecord.Proofs.Number.Digits
import MuseumRecord.Proofs.Rule.Precluded
import MuseumRecord.Proofs.Rule.ReadableDate
import MuseumRecord.Proofs.Schema.Conforming
import MuseumRecord.Proofs.Schema.Namespace
import MuseumRecord.Proofs.Schema.PolicyWalk
import MuseumRecord.Proofs.Schema.Row
import MuseumRecord.Proofs.Text.Cut
import MuseumRecord.Proofs.Text.Enclosed
import MuseumRecord.Report.Basic
import MuseumRecord.Report.Json
import MuseumRecord.Rule.Group
import MuseumRecord.Rule.ImageFile
import MuseumRecord.Rule.Measurement
import MuseumRecord.Rule.Provenance
import MuseumRecord.Rule.Violation
import MuseumRecord.Schema.Conformance
import MuseumRecord.Schema.Declaration
import MuseumRecord.Schema.Exhibit
import MuseumRecord.Schema.Finding
import MuseumRecord.Schema.Outline
import MuseumRecord.Schema.Sequence
import MuseumRecord.Schema.ValueType
import MuseumRecord.Settings.Basic
import MuseumRecord.Settings.File
import MuseumRecord.Settings.Storage
import MuseumRecord.Text.Blank
import MuseumRecord.Text.Bytes
import MuseumRecord.Text.LowerCase
import MuseumRecord.Text.LowerCase.Table
import MuseumRecord.Text.Piece
import MuseumRecord.Toml.Document
import MuseumRecord.Toml.Lexeme
import MuseumRecord.Toml.Quotation
import MuseumRecord.Toml.Scalar
import MuseumRecord.Toml.Statement
import MuseumRecord.Toml.Style
import MuseumRecord.Toml.Value
import MuseumRecord.Proofs.Markup.Faithful
import MuseumRecord.Proofs.Inspection.Sanitized
import MuseumRecord.Proofs.Settings.Extensions
import MuseumRecord.Proofs.Toml.Lexeme
import MuseumRecord.Proofs.Toml.Statement
import MuseumRecord.Proofs.Files.Growth
import MuseumRecord.Proofs.Files.Writing
import MuseumRecord.Proofs.Settings.RoundTrip
import MuseumRecord.Proofs.HistoricalDate.Bounded
import MuseumRecord.Proofs.Rule.Independence
import MuseumRecord.Proofs.Schema.Placement
import MuseumRecord.Proofs.Schema.Walk
import MuseumRecord.Proofs.Schema.SequenceErrors
import MuseumRecord.Proofs.Schema.Visited
import MuseumRecord.Proofs.Files.Listing
import MuseumRecord.Proofs.Command.Creation
import MuseumRecord.Proofs.Text.Caseless
import MuseumRecord.Proofs.Text.Division
import MuseumRecord.Proofs.HistoricalDate.Nesting
import MuseumRecord.Proofs.Calendar.LetterCase
import MuseumRecord.Proofs.Calendar.Layout
import MuseumRecord.Proofs.Calendar.Overlap
import MuseumRecord.Proofs.Calendar.ReadBack
import MuseumRecord.Proofs.HistoricalDate.Division
import MuseumRecord.Proofs.Calendar.Characters
import MuseumRecord.Proofs.HistoricalDate.Written
import MuseumRecord.Proofs.HistoricalDate.WrittenRange
import MuseumRecord.Proofs.Calendar.Remainder
import MuseumRecord.Proofs.Calendar.Offset
import MuseumRecord.Proofs.Identifier.Spelling
import MuseumRecord.Proofs.Markup.AttributeNames
import MuseumRecord.Proofs.Markup.Place
import MuseumRecord.Proofs.Schema.Path
import MuseumRecord.Proofs.Schema.Sighting
import MuseumRecord.Proofs.Schema.Locality
import MuseumRecord.Proofs.Text.Stretches
import MuseumRecord.Proofs.Text.Seams
import MuseumRecord.Proofs.Markup.Removal
import MuseumRecord.Proofs.Markup.FirstFault
import MuseumRecord.Proofs.Markup.Preorder
import MuseumRecord.Proofs.Schema.WalkedPlace
import MuseumRecord.Proofs.Schema.Turn
import MuseumRecord.Proofs.Schema.Numbering
import MuseumRecord.Proofs.Schema.DocumentOrder
import MuseumRecord.Proofs.Number.Literal
import MuseumRecord.Proofs.Number.Binary64
import MuseumRecord.Proofs.Calendar.Gregorian
import MuseumRecord.Proofs.Schema.ValueGrammar
import MuseumRecord.Proofs.Number.FixedPoint
import MuseumRecord.Proofs.Rule.Provenance
import MuseumRecord.Proofs.Rule.Price
import MuseumRecord.Proofs.Rule.ImageFile
import MuseumRecord.Proofs.HistoricalDate.MarkedYear
import MuseumRecord.Proofs.Files.Order
import MuseumRecord.Proofs.Files.Collection
import MuseumRecord.Proofs.Report.Reading
import MuseumRecord.Proofs.Command.Table
import MuseumRecord.Proofs.Command.Agreement
import MuseumRecord.Proofs.Text.Lines
import MuseumRecord.Proofs.Report.Layout
import MuseumRecord.Proofs.Markup.Unbroken
import MuseumRecord.Proofs.Schema.Unbroken
import MuseumRecord.Proofs.HistoricalDate.Refusal
import MuseumRecord.Proofs.Rule.Unbroken
import MuseumRecord.Proofs.Inspection.Lines
import MuseumRecord.Proofs.Text.Leftmost
import MuseumRecord.Proofs.HistoricalDate.Halving
import MuseumRecord.Proofs.Schema.TypeText
import MuseumRecord.Proofs.Schema.OutlineRow
import MuseumRecord.Proofs.Schema.Outline
