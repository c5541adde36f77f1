import Speedtest.Access.Gate
import Speedtest.Address.Ip
import Speedtest.Address.Network
import Speedtest.Address.Reach
import Speedtest.Address.V4
import Speedtest.Address.V6
import Speedtest.Bytes
import Speedtest.Client.Query
import Speedtest.Client.Report
import Speedtest.CommandLine.Serve
import Speedtest.CommandLine.Stats
import Speedtest.CommandLine.Words
import Speedtest.Decimal.Binary64
import Speedtest.Decimal.Fixed
import Speedtest.Decimal.Number
import Speedtest.Decimal.Shortest
import Speedtest.Diagnostics.Level
import Speedtest.Download.Chunk
import Speedtest.Files
import Speedtest.Form
import Speedtest.Geo.Coordinate
import Speedtest.Geo.Distance
import Speedtest.Geo.Lookup
import Speedtest.Geo.Profile
import Speedtest.Http.Body
import Speedtest.Http.ClientAddress
import Speedtest.Http.FieldBlock
import Speedtest.Http.Headers
import Speedtest.Http.MediaType
import Speedtest.Http.Message
import Speedtest.Http.Mount
import Speedtest.Http.Multipart
import Speedtest.Http.Paths
import Speedtest.Http.Reply
import Speedtest.Http.Status
import Speedtest.Http.Target
import Speedtest.Identifier
import Speedtest.Json.Basic
import Speedtest.Json.Lexeme
import Speedtest.Json.Pretty
import Speedtest.Json.Reader
import Speedtest.Json.Record
import Speedtest.Json.Writer
import Speedtest.Main
import Speedtest.Program
import Speedtest.Redaction.Address
import Speedtest.Redaction.Hostname
import Speedtest.Redaction.Scrub
import Speedtest.Relay.BinaryForm
import Speedtest.Relay.Cursor
import Speedtest.Relay.Header
import Speedtest.Relay.Noted
import Speedtest.Relay.Reading
import Speedtest.Relay.Replay
import Speedtest.Relay.TextForm
import Speedtest.Relay.Unwrap
import Speedtest.Service.Answer
import Speedtest.Service.Basic
import Speedtest.Service.Counters
import Speedtest.Service.Endpoint
import Speedtest.Service.Results
import Speedtest.Service.Streaming
import Speedtest.Service.Submission
import Speedtest.Service.Transfer
import Speedtest.Service.Whereabouts
import Speedtest.Serving.AcceptError
import Speedtest.Serving.Connection
import Speedtest.Serving.Listener
import Speedtest.Serving.Run
import Speedtest.Serving.Server
import Speedtest.Serving.Shutdown
import Speedtest.Serving.Startup
import Speedtest.Serving.Tracker
import Speedtest.Serving.Traffic
import Speedtest.Settings.Basic
import Speedtest.Settings.Environment
import Speedtest.Settings.Loading
import Speedtest.Settings.Table
import Speedtest.Settings.Validation
import Speedtest.Telemetry.Record
import Speedtest.Telemetry.Guarded
import Speedtest.Telemetry.Store
import Speedtest.Text.Ascii
import Speedtest.Text.Blank
import Speedtest.Text.CharTable
import Speedtest.Text.Charset
import Speedtest.Text.Digit
import Speedtest.Text.Numeral
import Speedtest.Text.Percent
import Speedtest.Text.Printable
import Speedtest.Text.Quoted
import Speedtest.Text.Replace
import Speedtest.Text.Scan
import Speedtest.Text.Utf8
import Speedtest.Text.Word
import Speedtest.Time.Calendar
import Speedtest.Time.Instant
import Speedtest.Time.Stamp
import Speedtest.Tls.Base64
import Speedtest.Tls.Certificate
import Speedtest.Tls.Der
import Speedtest.Tls.Identity
import Speedtest.Tls.Pem
import Speedtest.Tls.PrivateKey
import Speedtest.Toml.Blank
import Speedtest.Toml.Draft
import Speedtest.Toml.Moment
import Speedtest.Toml.Numeral
import Speedtest.Toml.Reader
import Speedtest.Toml.Text
import Speedtest.Toml.Value
import Speedtest.Url.Basic
import Speedtest.Url.Edit
import Speedtest.Url.Escape
import Speedtest.Url.Host
import Speedtest.Url.Parser
import Speedtest.Url.Punycode
import Speedtest.Wire.Framing
import Speedtest.Wire.Reading
import Speedtest.Wire.Requests
import Speedtest.Wire.Responses
import Speedtest.Proofs.Relay.HeaderReading
import Speedtest.Proofs.Relay.Trust
import Speedtest.Proofs.Service.Storing
import Speedtest.Proofs.Serving.ClientSeen
import Speedtest.Proofs.Service.Submissions
import Speedtest.Proofs.Telemetry.Recent
import Speedtest.Proofs.Service.Retrieval
import Speedtest.Proofs.Text.Scan
import Speedtest.Proofs.Text.Numeral
import Speedtest.Proofs.Text.Utf8
import Speedtest.Proofs.Address.Reading
import Speedtest.Proofs.Identifier
import Speedtest.Proofs.Relay.Forms
import Speedtest.Proofs.Service.Acknowledging
import Speedtest.Proofs.Service.Unauthorized
import Speedtest.Proofs.Http.Mounting
import Speedtest.Proofs.Service.Aliases
import Speedtest.Proofs.Service.Tallies
import Speedtest.Proofs.Service.Streaming
import Speedtest.Proofs.Settings.Agreement
import Speedtest.Proofs.Form
import Speedtest.Proofs.Http.Multipart
import Speedtest.Proofs.Service.TwoBodies
import Speedtest.Proofs.Http.Bases
import Speedtest.Proofs.Serving.Building
import Speedtest.Proofs.Service.Fields
import Speedtest.Proofs.Service.Provider
import Speedtest.Proofs.Serving.Anonymity
import Speedtest.Proofs.Service.Isolation
import Speedtest.Proofs.Address.Spelling
import Speedtest.Proofs.Relay.Lines
import Speedtest.Proofs.Relay.Blocks
import Speedtest.Proofs.Serving.Dropping
import Speedtest.Proofs.Serving.Course
import Speedtest.Proofs.Relay.Waiting
import Speedtest.Proofs.Relay.Replaying
import Speedtest.Proofs.Address.Canonical
import Speedtest.Proofs.Address.Trusting
import Speedtest.Proofs.Http.ClientNaming
import Speedtest.Proofs.Service.ClientKnown
import Speedtest.Proofs.Address.Reaching
import Speedtest.Proofs.Service.Placing
import Speedtest.Proofs.Text.Replacing
import Speedtest.Proofs.Redaction.Patterns
import Speedtest.Proofs.Redaction.Delimited
import Speedtest.Proofs.Service.Scrubbing
import Speedtest.Proofs.Telemetry.History
import Speedtest.Proofs.Text.Matches
import Speedtest.Proofs.Redaction.Passes
import Speedtest.Proofs.Json.Lexing
import Speedtest.Proofs.Json.Reading
import Speedtest.Proofs.Redaction.Documents
import Speedtest.Proofs.Redaction.HiddenNames
import Speedtest.Proofs.Redaction.Twice
import Speedtest.Proofs.Form.Decoding
import Speedtest.Proofs.Service.Parameters
import Speedtest.Proofs.Access.Passwords
import Speedtest.Proofs.Client.Tokens
import Speedtest.Proofs.Serving.Downloading
import Speedtest.Proofs.Settings.Reporting
import Speedtest.Proofs.Toml.Assigning
import Speedtest.Proofs.Settings.Overriding
import Speedtest.Proofs.Serving.Waking
import Speedtest.Proofs.Json.Writing
import Speedtest.Proofs.Time.Calendar
import Speedtest.Proofs.Time.Instants
import Speedtest.Proofs.Service.ReadBack
import Speedtest.Proofs.Service.Countdown
import Speedtest.Proofs.Serving.Counting
import Speedtest.Proofs.Decimal.Rounding
import Speedtest.Proofs.Decimal.Notation
import Speedtest.Proofs.Geo.Locating
import Speedtest.Proofs.Url.Below
import Speedtest.Proofs.Client.Asking
