import TableJoin.Declaration.Accessors
import TableJoin.Declaration.Error
import TableJoin.Declaration.Expression
import TableJoin.Declaration.Expression.Attributes
import TableJoin.Declaration.Expression.Fault
import TableJoin.Declaration.Expression.Item
import TableJoin.Declaration.Expression.Operand
import TableJoin.Declaration.Expression.Operator
import TableJoin.Declaration.Expression.Part
import TableJoin.Declaration.Expression.Path
import TableJoin.Declaration.Expression.Pattern
import TableJoin.Declaration.Expression.Reader
import TableJoin.Declaration.Expression.Types
import TableJoin.Declaration.FeatureTable
import TableJoin.Declaration.Lexeme
import TableJoin.Declaration.Lexeme.Number
import TableJoin.Declaration.Lexeme.Quotation
import TableJoin.Declaration.MarkupCode
import TableJoin.Declaration.Member
import TableJoin.Declaration.Model
import TableJoin.Declaration.Outline
import TableJoin.Declaration.Phrase
import TableJoin.Declaration.Quoted
import TableJoin.Declaration.Reflection
import TableJoin.Declaration.Setting
import TableJoin.Declaration.Token
import TableJoin.Declaration.TokenTree
import TableJoin.Declaration.TypePath
import TableJoin.Document.Basic
import TableJoin.Document.Root
import TableJoin.Document.Text
import TableJoin.Doing
import TableJoin.Endpoint
import TableJoin.Event
import TableJoin.Exchange
import TableJoin.Main
import TableJoin.Markup.Fault
import TableJoin.Markup.Name
import TableJoin.Markup.Node
import TableJoin.Markup.Reference
import TableJoin.Markup.Tag
import TableJoin.Markup.Token
import TableJoin.Numeral.Binary
import TableJoin.Numeral.Decimal
import TableJoin.Numeral.Digits
import TableJoin.Numeral.Unsigned
import TableJoin.Observation
import TableJoin.Proofs.Declaration.Acceptance
import TableJoin.Proofs.Declaration.Code
import TableJoin.Proofs.Declaration.Coverage
import TableJoin.Proofs.Declaration.Features
import TableJoin.Proofs.Declaration.Gathering
import TableJoin.Proofs.Declaration.Marshalling
import TableJoin.Proofs.Declaration.Methods
import TableJoin.Proofs.Declaration.Operations
import TableJoin.Proofs.Declaration.Placing
import TableJoin.Proofs.Declaration.Quoted
import TableJoin.Proofs.Declaration.Reach
import TableJoin.Proofs.Declaration.Recovery
import TableJoin.Proofs.Declaration.Sites
import TableJoin.Proofs.Declaration.Spreading
import TableJoin.Proofs.Document.Declared
import TableJoin.Proofs.Document.Decoding
import TableJoin.Proofs.Document.Envelope
import TableJoin.Proofs.Document.Extension
import TableJoin.Proofs.Document.Extents
import TableJoin.Proofs.Document.Remainder
import TableJoin.Proofs.Document.Rendering
import TableJoin.Proofs.Document.Reordering
import TableJoin.Proofs.Document.RoundTrip
import TableJoin.Proofs.Document.Source
import TableJoin.Proofs.Document.Truncation
import TableJoin.Proofs.Endpoint
import TableJoin.Proofs.Failure
import TableJoin.Proofs.Markup.Element
import TableJoin.Proofs.Markup.Escape
import TableJoin.Proofs.Markup.Locality
import TableJoin.Proofs.Markup.Name
import TableJoin.Proofs.Markup.NamedTag
import TableJoin.Proofs.Markup.Scoping
import TableJoin.Proofs.Markup.Source
import TableJoin.Proofs.Markup.SourceForm
import TableJoin.Proofs.Markup.SourceNodes
import TableJoin.Proofs.Markup.SourceTag
import TableJoin.Proofs.Markup.Token
import TableJoin.Proofs.Numeral.Canonical
import TableJoin.Proofs.Numeral.DecimalForm
import TableJoin.Proofs.Numeral.DecimalText
import TableJoin.Proofs.Numeral.MachineSteps
import TableJoin.Proofs.Numeral.UnsignedForm
import TableJoin.Proofs.Observation.Addition
import TableJoin.Proofs.Observation.Delivery
import TableJoin.Proofs.Observation.Journal
import TableJoin.Proofs.Observation.Run
import TableJoin.Proofs.Observation.Transparency
import TableJoin.Proofs.Reading.ByName
import TableJoin.Proofs.Reading.Consumption
import TableJoin.Proofs.Reading.Decoding
import TableJoin.Proofs.Reading.Extent
import TableJoin.Proofs.Reading.Following
import TableJoin.Proofs.Reading.LastChild
import TableJoin.Proofs.Reading.MatchingEnd
import TableJoin.Proofs.Reading.NodeLoop
import TableJoin.Proofs.Reading.Outcome
import TableJoin.Proofs.Reading.Refinement
import TableJoin.Proofs.Reading.Run
import TableJoin.Proofs.Reading.Spelling
import TableJoin.Proofs.Reading.Strictness
import TableJoin.Proofs.Reading.Termination
import TableJoin.Proofs.Reading.Truncation
import TableJoin.Proofs.Reading.Views
import TableJoin.Proofs.Record.Appending
import TableJoin.Proofs.Record.BlankText
import TableJoin.Proofs.Record.Building
import TableJoin.Proofs.Record.Distinction
import TableJoin.Proofs.Record.Envelope
import TableJoin.Proofs.Record.Fits
import TableJoin.Proofs.Record.Items
import TableJoin.Proofs.Record.ReadBack
import TableJoin.Proofs.Record.Reads
import TableJoin.Proofs.Record.Rebuilding
import TableJoin.Proofs.Record.Rendering
import TableJoin.Proofs.Record.Store
import TableJoin.Proofs.Record.Typed
import TableJoin.Proofs.Record.Within
import TableJoin.Proofs.Sample.Decoding
import TableJoin.Proofs.Sample.Text
import TableJoin.Proofs.Sample.Tree
import TableJoin.Proofs.Sample.Writing
import TableJoin.Proofs.Schema.Lexical
import TableJoin.Proofs.Schema.Table
import TableJoin.Proofs.Text.Buffer
import TableJoin.Proofs.Text.Bytes
import TableJoin.Proofs.Validation.Paths
import TableJoin.Proofs.Validation.ReadBack
import TableJoin.Proofs.Validation.Rules
import TableJoin.Proofs.Validation.Sections
import TableJoin.Proofs.Validation.Walk
import TableJoin.Proofs.Writing.Attributes
import TableJoin.Proofs.Writing.ComingBack
import TableJoin.Proofs.Writing.Content
import TableJoin.Proofs.Writing.Elements
import TableJoin.Proofs.Writing.Names
import TableJoin.Proofs.Writing.Options
import TableJoin.Proofs.Writing.Printed
import TableJoin.Proofs.Writing.Resolution
import TableJoin.Proofs.Writing.Sources
import TableJoin.Proofs.Writing.Tag
import TableJoin.Reading.Cursor
import TableJoin.Reading.Error
import TableJoin.Reading.Records
import TableJoin.Reading.Step
import TableJoin.Record.Access
import TableJoin.Record.Basic
import TableJoin.Record.Construction
import TableJoin.Record.Envelope
import TableJoin.Record.Named
import TableJoin.Record.Roles
import TableJoin.Record.Typed
import TableJoin.Sample
import TableJoin.Schema.AttributeTable
import TableJoin.Schema.Enumeration
import TableJoin.Schema.Feature
import TableJoin.Schema.Joining
import TableJoin.Schema.Operation
import TableJoin.Schema.RecordType
import TableJoin.Schema.ServiceMetadata
import TableJoin.Schema.Shared
import TableJoin.Schema.Simple
import TableJoin.Schema.SpatialFramework
import TableJoin.Schema.Table
import TableJoin.Schema.ValueDomain
import TableJoin.Sections
import TableJoin.Text.Blank
import TableJoin.Text.Buffer
import TableJoin.Text.Cut
import TableJoin.Text.Identifier
import TableJoin.Text.Upper
import TableJoin.Throughput
import TableJoin.Validation
import TableJoin.Value.Basic
import TableJoin.Value.Conversion
import TableJoin.Writing.Mark
import TableJoin.Writing.Options
import TableJoin.Writing.Records
