import ChangeFeed.Command.Arguments
import ChangeFeed.Command.Flag
import ChangeFeed.Command.Help
import ChangeFeed.Command.Program
import ChangeFeed.Command.Rehearsal
import ChangeFeed.Config.Delimiter
import ChangeFeed.Config.Duration
import ChangeFeed.Config.Mapping
import ChangeFeed.Config.MappingFile
import ChangeFeed.Config.Options
import ChangeFeed.Doris.ColumnChange
import ChangeFeed.Doris.ColumnType
import ChangeFeed.Envelope
import ChangeFeed.Fault
import ChangeFeed.File
import ChangeFeed.FileTree
import ChangeFeed.Frontend.Client
import ChangeFeed.Frontend.Endpoint
import ChangeFeed.Frontend.Reply
import ChangeFeed.Frontend.Script
import ChangeFeed.Frontend.Session
import ChangeFeed.Frontend.Url
import ChangeFeed.Frontend.Wire
import ChangeFeed.History
import ChangeFeed.Json.Basic
import ChangeFeed.Json.Number
import ChangeFeed.Json.Outline
import ChangeFeed.Json.Quoted
import ChangeFeed.Json.Reader
import ChangeFeed.Json.Writer
import ChangeFeed.Main
import ChangeFeed.Pattern.Basic
import ChangeFeed.Pattern.Parser
import ChangeFeed.Pattern.Places
import ChangeFeed.Pattern.Search
import ChangeFeed.Record
import ChangeFeed.Routing
import ChangeFeed.Serializer
import ChangeFeed.Sync
import ChangeFeed.Text.Base64
import ChangeFeed.Text.Basic
import ChangeFeed.Text.Blank
import ChangeFeed.Text.Bytes
import ChangeFeed.Text.Folding
import ChangeFeed.Text.Natural
import ChangeFeed.Text.Upper
import ChangeFeed.Text.WordChar
import ChangeFeed.Yaml.Cursor
import ChangeFeed.Yaml.Mapping
import ChangeFeed.Yaml.Scalar
import ChangeFeed.Proofs.Frontend.Url
import ChangeFeed.Proofs.Frontend.Passage
import ChangeFeed.Proofs.Frontend.Played
import ChangeFeed.Proofs.Schema.Translation
import ChangeFeed.Proofs.Result
import ChangeFeed.Proofs.Stream.Line
import ChangeFeed.Proofs.Json.Quoted
import ChangeFeed.Proofs.Stream.Run
import ChangeFeed.Proofs.Stream.Accounting
import ChangeFeed.Proofs.Stream.Requests
import ChangeFeed.Proofs.Json.Numeral
import ChangeFeed.Proofs.Json.Readable
import ChangeFeed.Proofs.Json.Inverse
import ChangeFeed.Proofs.Json.Acceptance
import ChangeFeed.Proofs.Json.Skipping
import ChangeFeed.Proofs.Json.Outlining
import ChangeFeed.Proofs.Rows.Images
import ChangeFeed.Proofs.Rows.Outcome
import ChangeFeed.Proofs.Rows.Lines
import ChangeFeed.Proofs.Schema.AddedColumn
import ChangeFeed.Proofs.Pattern.Places
import ChangeFeed.Proofs.Pattern.Ways
import ChangeFeed.Proofs.Pattern.Search
import ChangeFeed.Proofs.Text.Words
import ChangeFeed.Proofs.Pattern.Sets
import ChangeFeed.Proofs.Pattern.Scanning
import ChangeFeed.Proofs.Pattern.WordScan
import ChangeFeed.Proofs.Schema.Statement
import ChangeFeed.Proofs.Schema.Clauses
import ChangeFeed.Proofs.Schema.Target
import ChangeFeed.Proofs.Stream.Independence
import ChangeFeed.Proofs.Text.Encoding
import ChangeFeed.Proofs.Stream.Output
import ChangeFeed.Proofs.Stream.Composition
import ChangeFeed.Proofs.Stream.Layout
import ChangeFeed.Proofs.Stream.Wrapper
import ChangeFeed.Proofs.Rows.Splitting
import ChangeFeed.Proofs.Schema.Default
import ChangeFeed.Proofs.Text.Trimming
import ChangeFeed.Proofs.Text.Cutting
import ChangeFeed.Proofs.Json.Spelling
import ChangeFeed.Proofs.Json.Grammar
import ChangeFeed.Proofs.Schema.Limits
import ChangeFeed.Proofs.Schema.DroppedColumn
import ChangeFeed.Proofs.Schema.Reading
import ChangeFeed.Proofs.Schema.Embedded
import ChangeFeed.Proofs.Text.Upper
import ChangeFeed.Proofs.Schema.Widening
import ChangeFeed.Proofs.Schema.Faults
import ChangeFeed.Proofs.Frontend.Question
import ChangeFeed.Proofs.Frontend.Consent
import ChangeFeed.Proofs.Frontend.OneCode
import ChangeFeed.Proofs.Routing.Precedence
import ChangeFeed.Proofs.Routing.Identity
import ChangeFeed.Proofs.Routing.Form
import ChangeFeed.Proofs.Config.Pieces
import ChangeFeed.Proofs.Text.Digits
import ChangeFeed.Proofs.Config.Escapes
import ChangeFeed.Proofs.Config.Units
import ChangeFeed.Proofs.Frontend.Hosts
import ChangeFeed.Proofs.Text.Base64
import ChangeFeed.Proofs.Frontend.Credentials
import ChangeFeed.Proofs.Rows.Marks
